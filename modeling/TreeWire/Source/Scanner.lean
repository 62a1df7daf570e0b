import TreeWire.Source.Basic
import TreeWire.Source.Lexeme

/-
  The scanner: tokens of a JSON text, read in one pass from
  its bytes.

  The scanner knows the containers that are open and what the
  grammar allows next.  A container nested deeper than the
  limit is malformed input.

  Key definitions include:
    * `Frame`
    * `Stage`
    * `Scanner`
    * `Scanner.step`
    * `Scanner.stream`
-/

namespace TreeWire

------------------------------------------------------------
-- State
------------------------------------------------------------

/- The kinds of containers. -/
inductive Frame where
  | object
  | array
  deriving DecidableEq, Repr, Inhabited

/- What the grammar allows next. -/
inductive Stage where
  | topValue
  | topDone
  | firstKey
  | key
  | memberValue
  | afterMember
  | firstElement
  | element
  | afterElement
  deriving DecidableEq, Repr, Inhabited

/-
  A cursor in the text, the open containers, innermost first,
  what is allowed next, and how many containers may be open.
-/
structure Scanner where
  cursor : Cursor
  frames : List Frame
  stage : Stage
  maxDepth : Nat
  deriving DecidableEq, Repr, Inhabited

/- A computation that changes the state of a scanner. -/
abbrev Scanning :=
  ExceptT DecodeError (StateM Scanner)

namespace Scanner

/- A scanner before the first byte. -/
def start
    (bytes : List UInt8)
    (fault : Option String)
    (maxDepth : Nat) : Scanner :=
  ⟨Cursor.start bytes fault, [], .topValue, maxDepth⟩

------------------------------------------------------------
-- Steps of the Grammar
------------------------------------------------------------

/- Read bytes through the cursor. -/
def lex
    {α : Type}
    (action : Lexing α) : Scanning α :=
  fun s =>
    let (result, cursor) := action s.cursor
    (result, { s with cursor := cursor })

/- Set what is allowed next. -/
def setStage
    (stage : Stage) : Scanning Unit :=
  fun s => (.ok (), { s with stage := stage })

/- What is allowed after a value in the innermost container. -/
def stageAfter : List Frame → Stage
  | [] => .topDone
  | .object :: _ => .afterMember
  | .array :: _ => .afterElement

/- A value has ended. -/
def complete : Scanning Unit :=
  fun s => (.ok (), { s with stage := stageAfter s.frames })

/- Fail with malformed input at the next byte. -/
def malformed
    {α : Type}
    (message : String) : Scanning α :=
  lex do Cursor.malformed message (← Cursor.place)

/- A byte in a message: itself if it is visible ASCII. -/
def byteText
    (byte : UInt8) : String :=
  if 0x21 ≤ byte && byte ≤ 0x7e then
    "'" ++ String.singleton (Char.ofNat byte.toNat) ++ "'"
  else if byte < 0x10 then
    "byte 0x0" ++ String.ofList (hexDigits byte.toNat)
  else
    "byte 0x" ++ String.ofList (hexDigits byte.toNat)

/- Fail because something else should come next. -/
def unexpected
    {α : Type}
    (next : Option UInt8)
    (expected : String) : Scanning α :=
  let found :=
    match next with
    | some byte => byteText byte
    | none => "end of input"
  malformed ("unexpected " ++ found ++ ", expected " ++ expected)

/- Open a container, unless too many are open. -/
def openContainer
    (frame : Frame)
    (stage : Stage) : Scanning Unit := do
  let s ← get
  if s.maxDepth ≤ s.frames.length then
    malformed (depthMessage s.maxDepth)
  else
    let _ ← lex Cursor.bump
    modify fun s =>
      { s with frames := frame :: s.frames, stage := stage }

/- Read the closing mark of the innermost container. -/
def closeContainer
    (token : Token) : Scanning Token := do
  let _ ← lex Cursor.bump
  modify fun s => { s with frames := s.frames.tail }
  complete
  pure token

/- Read a literal. -/
def literal
    (lexeme : Lexing Literal) : Scanning Token := do
  let lit ← lex lexeme
  complete
  pure (.literal lit)

/- Read a literal or open a container. -/
def value : Scanning Token := do
  let next ← lex Cursor.peek
  match next with
  | some 0x7b =>
      openContainer .object .firstKey
      pure .objectOpen
  | some 0x5b =>
      openContainer .array .firstElement
      pure .arrayOpen
  | some 0x22 =>
      literal do pure ⟨.string, ← Lexeme.string⟩
  | some 0x74 =>
      literal (Lexeme.word "true" .bool)
  | some 0x66 =>
      literal (Lexeme.word "false" .bool)
  | some 0x6e =>
      literal (Lexeme.word "null" .null)
  | some byte =>
      if byte = 0x2d || Lexeme.isDigitByte byte then
        literal Lexeme.number
      else
        unexpected next "a value"
  | none =>
      unexpected next "a value"

/- Read a key and the colon after it. -/
def key
    (next : Option UInt8) : Scanning Token := do
  if next = some 0x22 then
    let name ← lex Lexeme.string
    let after ← lex Lexeme.blanks
    if after = some 0x3a then
      let _ ← lex Cursor.bump
      setStage .memberValue
      pure (.key name)
    else
      unexpected after "':'"
  else
    unexpected next "object key"

/- Read the token that the grammar allows next. -/
def token : Scanning Token := do
  let next ← lex Lexeme.blanks
  match (← get).stage with
  | .topValue =>
      value
  | .topDone =>
      if next.isNone then
        pure .eof
      else
        unexpected next "end of input"
  | .firstKey =>
      if next = some 0x7d then
        closeContainer .objectClose
      else
        key next
  | .key =>
      key next
  | .memberValue =>
      value
  | .afterMember =>
      if next = some 0x7d then
        closeContainer .objectClose
      else if next = some 0x2c then
        let _ ← lex Cursor.bump
        setStage .key
        key (← lex Lexeme.blanks)
      else
        unexpected next "',' or '\x7d'"
  | .firstElement =>
      if next = some 0x5d then
        closeContainer .arrayClose
      else
        value
  | .element =>
      value
  | .afterElement =>
      if next = some 0x5d then
        closeContainer .arrayClose
      else if next = some 0x2c then
        let _ ← lex Cursor.bump
        setStage .element
        let _ ← lex Lexeme.blanks
        value
      else
        unexpected next "',' or ']'"

------------------------------------------------------------
-- The Machine
------------------------------------------------------------

/- One step of a scanner. -/
def step
    (s : Scanner) : Except DecodeError Token × Scanner :=
  token s

/- Every token but `eof` takes a byte. -/
def bound
    (s : Scanner) : Nat :=
  s.cursor.unread.length

instance : TokenMachine Scanner where
  step := step
  bound := bound

/- The token source of a text. -/
def stream
    (bytes : List UInt8)
    (fault : Option String)
    (maxDepth : Nat) : Stream Scanner :=
  Stream.start (start bytes fault maxDepth)

end Scanner

end TreeWire
