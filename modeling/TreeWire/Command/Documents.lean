import TreeWire.Command.Invocation
import TreeWire.Files.Access
import TreeWire.Glob.Expansion
import TreeWire.Json.Parser
import TreeWire.Json.Pointer
import TreeWire.Node.Decoder
import TreeWire.Source.Scanner
import TreeWire.Source.ValueWalk
import TreeWire.Text.Blank
import TreeWire.Text.Lines

/-
  The documents of files.

  A document is a project.  A file is one document, or has one
  on each line that is not blank.  A pointer selects the root
  of a document that is more than a project.

  Key definitions include:
    * `DocumentError`
    * `Outcome`
    * `Framing.decodeText`
    * `Framing.outcomes`
    * `decodeInputs`
-/

namespace TreeWire

------------------------------------------------------------
-- Outcomes
------------------------------------------------------------

/- Why there is no project. -/
inductive DocumentError where
  | unopened (path : String) (error : FileError)
  | unread (path : String) (error : FileError)
  | malformed (error : JsonError)
  | unresolved (pointer : String)
  | rejected (error : DecodeError)
  deriving DecidableEq, Repr, Inhabited

namespace DocumentError

/- An error in words. -/
def text : DocumentError → String
  | .unopened path error =>
      "failed to open " ++ path ++ ": " ++ error.text
  | .unread path error =>
      "failed to read " ++ path ++ ": " ++ error.text
  | .malformed error =>
      "failed to parse JSON: " ++ error.message
  | .unresolved pointer =>
      "JSON pointer " ++ pointer ++ " does not resolve"
  | .rejected error =>
      error.message

end DocumentError

/- What became of a document, and where it stands. -/
structure Outcome where
  source : String
  result : Except DocumentError Tree

namespace Outcome

/- Whether a document was refused. -/
def isFailure
    (outcome : Outcome) : Bool :=
  match outcome.result with
  | .ok _ => false
  | .error _ => true

end Outcome

------------------------------------------------------------
-- Decoding
------------------------------------------------------------

/- What a document is. -/
def documentShape : Shape :=
  .node .project

/- Decode bytes, after which there may be a fault. -/
def decodeBytes
    (maxDepth : Nat)
    (bytes : List UInt8)
    (fault : Option String) : Except DecodeError Tree :=
  (decodeDocument documentShape
    (Scanner.stream bytes fault maxDepth)).1

/- Decode a part of a parsed document. -/
def decodeValue
    (maxDepth : Nat)
    (j : Json) : Except DecodeError Tree :=
  (decodeDocument documentShape (ValueWalk.stream j maxDepth)).1

/-
  Decode an opened file.  A directory can be opened, but there
  is a fault where its first byte should be.
-/
def decodeOpened
    (maxDepth : Nat) :
    Except FileError (List UInt8) →
    Except FileError (Except DecodeError Tree)
  | .ok bytes =>
      .ok (decodeBytes maxDepth bytes none)
  | .error .isDirectory =>
      .ok (decodeBytes maxDepth [] (some FileError.isDirectory.text))
  | .error e =>
      .error e

namespace Framing

/- Decode the text of one document. -/
def decodeText
    (framing : Framing)
    (maxDepth : Nat)
    (text : String) : Except DocumentError Tree := do
  let bytes := text.toUTF8.toList
  match framing.pointer with
  | none =>
      (decodeBytes maxDepth bytes none).mapError .rejected
  | some pointer =>
      let j ← (Json.parse bytes).mapError .malformed
      match j.resolve? pointer with
      | none => .error (.unresolved pointer)
      | some part => (decodeValue maxDepth part).mapError .rejected

/-
  The documents on the lines of a text.  Blank lines count,
  but are no documents.
-/
def decodeLines
    (framing : Framing)
    (maxDepth : Nat)
    (path : String) :
    (number : Nat) →
    List String →
    List Outcome
  | _, [] =>
      []
  | number, line :: lines =>
      let rest := decodeLines framing maxDepth path (number + 1) lines
      if isBlankLine line then
        rest
      else
        { source := path ++ ":" ++ toString number
          result := framing.decodeText maxDepth line } :: rest

/- Whether the bytes of a file are the document. -/
def isWhole
    (framing : Framing) : Bool :=
  !framing.lineByLine && framing.pointer.isNone

/- What becomes of a file, given what is read from it. -/
def outcomes
    (framing : Framing)
    (maxDepth : Nat)
    (path : String)
    (content : Except FileError (List UInt8)) : List Outcome :=
  if framing.isWhole then
    match decodeOpened maxDepth content with
    | .error e => [⟨path, .error (.unopened path e)⟩]
    | .ok result => [⟨path, result.mapError .rejected⟩]
  else
    match content.bind asText with
    | .error e =>
        [⟨path, .error (.unread path e)⟩]
    | .ok text =>
        if framing.lineByLine then
          framing.decodeLines maxDepth path 1 (textLines text)
        else
          [⟨path, framing.decodeText maxDepth text⟩]

end Framing

------------------------------------------------------------
-- Inputs
------------------------------------------------------------

/- Why an input stands for no files. -/
inductive InputError where
  | pattern (error : PatternError)
  | noMatch (input : String)
  deriving DecidableEq, Repr, Inhabited

namespace InputError

/- An error in words. -/
def text : InputError → String
  | .pattern error => error.text
  | .noMatch input => "glob pattern matched no files: " ++ input

end InputError

section

variable {m : Type → Type} [Monad m] [FileAccess m]

/- The files that an input stands for. -/
def resolveInput
    (input : String) : m (Except InputError (List String)) := do
  if Glob.isGlob input then
    match ← Glob.expand input with
    | .error e => return .error (.pattern e)
    | .ok [] => return .error (.noMatch input)
    | .ok paths => return .ok paths
  else
    return .ok [input]

/- The files that inputs stand for, in order. -/
def resolveInputs :
    List String → m (Except InputError (List String))
  | [] =>
      return .ok []
  | input :: inputs => do
      match ← resolveInput input with
      | .error e =>
          return .error e
      | .ok paths =>
          return (← resolveInputs inputs).map (paths ++ ·)

/- Decode the documents of files. -/
def decodeFiles
    (settings : DecodeSettings) :
    List String → m (List Outcome)
  | [] =>
      return []
  | path :: paths => do
      let content ← FileAccess.read path
      let found :=
        settings.framing.outcomes settings.maxDepth path content
      return found ++ (← decodeFiles settings paths)

/- Decode all that the settings name. -/
def decodeInputs
    (settings : DecodeSettings) :
    m (Except InputError (List Outcome)) := do
  match ← resolveInputs settings.inputs with
  | .error e => return .error e
  | .ok paths => return .ok (← decodeFiles settings paths)

end

end TreeWire
