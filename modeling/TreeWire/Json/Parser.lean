import TreeWire.Json.Number
import TreeWire.Source.Lexeme

/-
  JSON texts parsed into trees.

  Of members with the same key the last value stays, at the
  place of the first.  Fewer than 128 containers may nest.  A
  failure names the line and the column, counted in bytes, of
  the byte that shows it.

  Key definitions include:
    * `JsonFault`
    * `JsonError`
    * `JsonError.message`
    * `Json.insert`
    * `Json.parse`
-/

namespace TreeWire

------------------------------------------------------------
-- Errors
------------------------------------------------------------

/- Why a text is no JSON document. -/
inductive JsonFault where
  | endInList
  | endInObject
  | endInString
  | endInValue
  | expectedColon
  | expectedListEnd
  | expectedObjectEnd
  | expectedWord
  | expectedValue
  | invalidEscape
  | invalidNumber
  | outOfRange
  | invalidCodePoint
  | controlCharacter
  | keyNotString
  | loneSurrogate
  | trailingComma
  | trailingCharacters
  | endOfHexEscape
  | tooDeep
  deriving DecidableEq, Repr, Inhabited

namespace JsonFault

/- A fault in words. -/
def text : JsonFault → String
  | .endInList => "EOF while parsing a list"
  | .endInObject => "EOF while parsing an object"
  | .endInString => "EOF while parsing a string"
  | .endInValue => "EOF while parsing a value"
  | .expectedColon => "expected `:`"
  | .expectedListEnd => "expected `,` or `]`"
  | .expectedObjectEnd => "expected `,` or `\x7d`"
  | .expectedWord => "expected ident"
  | .expectedValue => "expected value"
  | .invalidEscape => "invalid escape"
  | .invalidNumber => "invalid number"
  | .outOfRange => "number out of range"
  | .invalidCodePoint => "invalid unicode code point"
  | .controlCharacter =>
      "control character (\\u0000-\\u001F) found "
        ++ "while parsing a string"
  | .keyNotString => "key must be a string"
  | .loneSurrogate => "lone leading surrogate in hex escape"
  | .trailingComma => "trailing comma"
  | .trailingCharacters => "trailing characters"
  | .endOfHexEscape => "unexpected end of hex escape"
  | .tooDeep => "recursion limit exceeded"

end JsonFault

/- A fault, the line and the column that show it. -/
structure JsonError where
  fault : JsonFault
  line : Nat
  column : Nat
  deriving DecidableEq, Repr, Inhabited

namespace JsonError

/- An error in words. -/
def message
    (e : JsonError) : String :=
  e.fault.text ++ " at line " ++ toString e.line
    ++ " column " ++ toString e.column

end JsonError

------------------------------------------------------------
-- Reading Bytes
------------------------------------------------------------

/-
  The bytes not yet read, the line, and how many of its bytes
  are read.
-/
structure JsonCursor where
  unread : List UInt8
  line : Nat
  column : Nat
  deriving DecidableEq, Repr, Inhabited

/- A computation that reads bytes of a JSON text. -/
abbrev JsonParser :=
  StateT JsonCursor (Except JsonError)

namespace JsonParser

/- Fail at the byte that was read last. -/
def fail
    {α : Type}
    (fault : JsonFault) : JsonParser α :=
  fun c => .error ⟨fault, c.line, c.column⟩

/- The next byte, which stays unread. -/
def peek : JsonParser (Option UInt8) :=
  fun c => .ok (c.unread.head?, c)

/- Read one byte. -/
def next : JsonParser (Option UInt8) :=
  fun c =>
    match c.unread with
    | [] =>
        .ok (none, c)
    | byte :: rest =>
        if byte = 0x0a then
          .ok (some byte, ⟨rest, c.line + 1, 0⟩)
        else
          .ok (some byte, ⟨rest, c.line, c.column + 1⟩)

/- Fail at the byte that comes next. -/
def failNext
    {α : Type}
    (fault : JsonFault) : JsonParser α := do
  let _ ← next
  fail fault

/- Read as many bytes as a list has. -/
def skip : List UInt8 → JsonParser Unit
  | [] =>
      pure ()
  | _ :: rest => do
      let _ ← next
      skip rest

/- Read the bytes that satisfy a test. -/
def takeWhile
    (test : UInt8 → Bool) : JsonParser (List UInt8) := do
  let taken := (← get).unread.takeWhile test
  skip taken
  pure taken

/- Read blanks and look at the byte after them. -/
def blanks : JsonParser (Option UInt8) := do
  let _ ← takeWhile Lexeme.isBlankByte
  peek

/- Read the values of the digits that come next. -/
def digits : JsonParser (List Nat) := do
  let taken ← takeWhile Lexeme.isDigitByte
  pure (taken.map fun b => b.toNat - 0x30)

------------------------------------------------------------
-- Words
------------------------------------------------------------

/- Read the rest of a word. -/
def word : List UInt8 → JsonParser Unit
  | [] =>
      pure ()
  | expected :: rest => do
      match ← next with
      | none =>
          fail .endInValue
      | some byte =>
          if byte = expected then
            word rest
          else
            fail .expectedWord

------------------------------------------------------------
-- Numbers
------------------------------------------------------------

/- A scaled number, or the failure that it has no double. -/
def scaled
    (negative : Bool)
    (value : Nat)
    (e : Int) : JsonParser Json :=
  match JsonNumber.scale negative value e with
  | some x => pure (.float x)
  | none => fail .outOfRange

/- Read the digits of an exponent after its first one. -/
def exponentDigits
    (value : Nat) : JsonParser (Option Nat) := do
  let start ← get
  let ds ← digits
  match JsonNumber.appendExponent? value ds with
  | some e =>
      pure (some e)
  | none =>
      -- The failure shows at the digit that is one too many.
      let fits := fun n =>
        (JsonNumber.appendExponent? value (ds.take n)).isSome
      let kept := ((List.range ds.length).filter fits).length
      set start
      skip (start.unread.take kept)
      pure none

/-
  Read an exponent from its mark on, and scale a number whose
  last digit stands for `10 ^ e`.
-/
def exponent
    (negative : Bool)
    (value : Nat)
    (e : Int) : JsonParser Json := do
  let _ ← next
  let sign ← peek
  if sign = some 0x2b ∨ sign = some 0x2d then
    let _ ← next
  match ← next with
  | none =>
      fail .endInValue
  | some byte =>
      if Lexeme.isDigitByte byte then
        match ← exponentDigits (byte.toNat - 0x30) with
        | some power =>
            if sign = some 0x2d then
              scaled negative value (e - power)
            else
              scaled negative value (e + power)
        | none =>
            if value ≠ 0 ∧ sign ≠ some 0x2d then
              fail .outOfRange
            else
              let _ ← digits
              pure (.float (Binary64.zero negative))
      else
        fail .invalidNumber

/- Read an exponent, if there is one, and scale a number. -/
def exponentOrEnd
    (negative : Bool)
    (value : Nat)
    (e : Int) : JsonParser Json := do
  let mark ← peek
  if mark = some 0x65 ∨ mark = some 0x45 then
    exponent negative value e
  else
    scaled negative value e

/- Read a fraction from its point on, and what follows it. -/
def fraction
    (negative : Bool)
    (value : Nat)
    (e : Int) : JsonParser Json := do
  let _ ← next
  let ds ← digits
  if ds.isEmpty then
    match ← peek with
    | some _ => failNext .invalidNumber
    | none => fail .endInValue
  else
    let (total, kept) := JsonNumber.appendDigits value 0 ds
    exponentOrEnd negative total (e - kept)

/-
  Read what follows the digits before the point; `dropped` of
  them did not fit.
-/
def afterWhole
    (negative : Bool)
    (value : Nat)
    (dropped : Nat) : JsonParser Json := do
  let mark ← peek
  if mark = some 0x2e then
    fraction negative value dropped
  else if mark = some 0x65 ∨ mark = some 0x45 then
    exponent negative value dropped
  else if dropped = 0 then
    pure (JsonNumber.integer negative value)
  else
    scaled negative value dropped

/- Read a number after its sign. -/
def number
    (negative : Bool) : JsonParser Json := do
  match ← next with
  | none =>
      fail .endInValue
  | some byte =>
      if byte = 0x30 then
        if (← peek).any Lexeme.isDigitByte then
          failNext .invalidNumber
        else
          afterWhole negative 0 0
      else if Lexeme.isDigitByte byte then
        let ds ← digits
        let (value, kept) :=
          JsonNumber.appendDigits (byte.toNat - 0x30) 0 ds
        afterWhole negative value (ds.length - kept)
      else
        fail .invalidNumber

------------------------------------------------------------
-- Strings
------------------------------------------------------------

/- Read four hexadecimal digits. -/
def hexFour : JsonParser Nat := do
  let four := (← get).unread.take 4
  skip four
  if four.length < 4 then
    fail .endInString
  else
    match four.mapM Lexeme.hexValue? with
    | some ds => pure (ds.foldl (fun n d => 16 * n + d) 0)
    | none => fail .invalidEscape

/- Read a byte that has to come next in an escape. -/
def expectInEscape
    (expected : UInt8) : JsonParser Unit := do
  match ← next with
  | none =>
      fail .endInString
  | some byte =>
      if byte = expected then
        pure ()
      else
        fail .endOfHexEscape

/- Read an escape by code point, from after its letter. -/
def unicodeEscape : JsonParser Char := do
  let first ← hexFour
  if 0xdc00 ≤ first ∧ first ≤ 0xdfff then
    fail .loneSurrogate
  else if 0xd800 ≤ first ∧ first ≤ 0xdbff then
    expectInEscape 0x5c
    expectInEscape 0x75
    let low ← hexFour
    if 0xdc00 ≤ low ∧ low ≤ 0xdfff then
      pure (Char.ofNat
        (0x10000 + (first - 0xd800) * 0x400 + (low - 0xdc00)))
    else
      fail .loneSurrogate
  else
    pure (Char.ofNat first)

/- Read an escape, from after its backslash. -/
def escape : JsonParser Char := do
  match ← next with
  | none => fail .endInString
  | some 0x22 => pure '"'
  | some 0x5c => pure '\\'
  | some 0x2f => pure '/'
  | some 0x62 => pure (Char.ofNat 8)
  | some 0x66 => pure (Char.ofNat 12)
  | some 0x6e => pure '\n'
  | some 0x72 => pure '\r'
  | some 0x74 => pure '\t'
  | some 0x75 => unicodeEscape
  | _ => fail .invalidEscape

/-
  Read the rest of a string up to its closing mark, after the
  bytes `done`, latest first.  The last argument is the input
  that was ahead when the string began: every round reads at
  least one of its bytes.
-/
def stringBytes
    (done : List UInt8) :
    List UInt8 → JsonParser (List UInt8)
  | [] =>
      fail .endInString
  | _ :: rounds => do
      match ← next with
      | none =>
          fail .endInString
      | some byte =>
          if byte = 0x22 then
            pure done.reverse
          else if byte = 0x5c then
            let c ← escape
            let bytes := String.utf8EncodeChar c
            stringBytes (bytes.reverse ++ done) rounds
          else if byte < 0x20 then
            fail .controlCharacter
          else
            stringBytes (byte :: done) rounds

/- Read a string, from its opening mark. -/
def string : JsonParser String := do
  let _ ← next
  let bytes ← stringBytes [] (← get).unread
  match Lexeme.utf8Text? bytes with
  | some text => pure text
  | none => fail .invalidCodePoint

end JsonParser

------------------------------------------------------------
-- Containers
------------------------------------------------------------

namespace Json

/-
  Set a member: in place of the member with the same key, else
  at the end.
-/
def insert
    (key : String)
    (value : Json) :
    List (String × Json) → List (String × Json)
  | [] =>
      [(key, value)]
  | (name, old) :: rest =>
      if name = key then
        (name, value) :: rest
      else
        (name, old) :: insert key value rest

end Json

namespace JsonParser

/-
  Read array elements up to the closing mark.  The last
  argument is the input that was ahead when the array began:
  every round reads at least one of its bytes.
-/
def elements
    (item : JsonParser Json)
    (done : List Json) :
    List UInt8 → JsonParser (List Json)
  | [] =>
      failNext .endInList
  | _ :: rounds => do
      match ← blanks with
      | none =>
          fail .endInList
      | some 0x5d =>
          let _ ← next
          pure done.reverse
      | some byte =>
          if done.isEmpty then
            elements item [← item] rounds
          else if byte = 0x2c then
            let _ ← next
            match ← blanks with
            | none => fail .endInValue
            | some 0x5d => failNext .trailingComma
            | some _ => elements item ((← item) :: done) rounds
          else
            failNext .expectedListEnd

/- Read a member from its key on. -/
def member
    (item : JsonParser Json) : JsonParser (String × Json) := do
  let key ← string
  match ← blanks with
  | none =>
      fail .endInObject
  | some 0x3a =>
      let _ ← next
      pure (key, ← item)
  | some _ =>
      failNext .expectedColon

/-
  Read object members up to the closing mark; `done` are the
  members before them, latest first.  The last argument is the
  input that was ahead when the object began.
-/
def members
    (item : JsonParser Json)
    (done : List (String × Json)) :
    List UInt8 → JsonParser (List (String × Json))
  | [] =>
      failNext .endInObject
  | _ :: rounds => do
      match ← blanks with
      | none =>
          fail .endInObject
      | some 0x7d =>
          let _ ← next
          pure done.reverse
      | some byte =>
          if done.isEmpty then
            if byte = 0x22 then
              members item [← member item] rounds
            else
              failNext .keyNotString
          else if byte = 0x2c then
            let _ ← next
            match ← blanks with
            | none =>
                fail .endInValue
            | some 0x22 =>
                members item ((← member item) :: done) rounds
            | some 0x7d =>
                failNext .trailingComma
            | some _ =>
                failNext .keyNotString
          else
            failNext .expectedObjectEnd

------------------------------------------------------------
-- Documents
------------------------------------------------------------

/-
  Read a value in which fewer containers nest than `levels`.
-/
def value : Nat → JsonParser Json
  | 0 =>
      failNext .tooDeep
  | levels + 1 => do
      match ← blanks with
      | none =>
          fail .endInValue
      | some 0x6e =>
          word [0x6e, 0x75, 0x6c, 0x6c]
          pure .null
      | some 0x74 =>
          word [0x74, 0x72, 0x75, 0x65]
          pure (.bool true)
      | some 0x66 =>
          word [0x66, 0x61, 0x6c, 0x73, 0x65]
          pure (.bool false)
      | some 0x2d =>
          let _ ← next
          number true
      | some 0x22 =>
          pure (.string (← string))
      | some 0x5b =>
          if levels = 0 then
            failNext .tooDeep
          else
            let _ ← next
            let items ←
              elements (value levels) [] (0 :: (← get).unread)
            pure (.array items)
      | some 0x7b =>
          if levels = 0 then
            failNext .tooDeep
          else
            let _ ← next
            let pairs ←
              members (value levels) [] (0 :: (← get).unread)
            pure (.object (pairs.foldl
              (fun done (key, j) => Json.insert key j done) []))
      | some byte =>
          if Lexeme.isDigitByte byte then
            number false
          else
            failNext .expectedValue

/- Read a value and nothing after it. -/
def document : JsonParser Json := do
  let j ← value 128
  match ← blanks with
  | none => pure j
  | some _ => failNext .trailingCharacters

end JsonParser

namespace Json

/- The tree of a JSON text. -/
def parse
    (bytes : List UInt8) : Except JsonError Json :=
  match JsonParser.document ⟨bytes, 1, 0⟩ with
  | .ok (j, _) => .ok j
  | .error e => .error e

end Json

end TreeWire
