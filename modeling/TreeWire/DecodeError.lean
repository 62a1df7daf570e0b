/-
  Why decoding failed, and where.

  An error is a cause and the path from the document root to
  the value at which it arose.  A path is a list of hops: into
  a field of a node, or into an element of an array.

  Key definitions include:
    * `Position`
    * `Position.advance`
    * `Cause`
    * `Hop`
    * `DecodeError`
    * `DecodeError.within`
    * `DecodeError.atIndex`
    * `DecodeError.message`
-/

namespace TreeWire

------------------------------------------------------------
-- Positions
------------------------------------------------------------

/-
  The place of a byte in the input.  Lines and columns start
  at one, offsets at zero; a column is a character, not a
  byte.
-/
structure Position where
  line : Nat
  column : Nat
  offset : Nat
  deriving DecidableEq, Repr, Inhabited

namespace Position

/- The place of the first byte. -/
def start : Position :=
  ⟨1, 1, 0⟩

/-
  The place after a byte.  A line feed starts a line, and the
  bytes that continue a character start no column.
-/
def advance
    (p : Position)
    (byte : UInt8) : Position :=
  if byte = 0x0a then
    ⟨p.line + 1, 1, p.offset + 1⟩
  else if byte &&& 0xc0 = 0x80 then
    ⟨p.line, p.column, p.offset + 1⟩
  else
    ⟨p.line, p.column + 1, p.offset + 1⟩

/- A position in words. -/
def text
    (p : Position) : String :=
  "line " ++ toString p.line
    ++ ", column " ++ toString p.column
    ++ " (byte " ++ toString p.offset ++ ")"

end Position

------------------------------------------------------------
-- Causes
------------------------------------------------------------

/- What went wrong. -/
inductive Cause where
  | malformed (message : String) (position : Option Position)
  | unreadable (message : String)
  | unexpectedKey (key node : String)
  | typeMismatch (expected found : String)
  | emptyObject (node : String)
  | unknownVariant (sum name : String)
  | misplacedTag (tag found : String)
  | wrongVariant (expected found : String)
  | invalidLiteral (kind text : String)
  | missingField (node key : String)
  | wrongShape (expected found : String)
  deriving DecidableEq, Repr, Inhabited

namespace Cause

/- A cause in words. -/
def message : Cause → String
  | .malformed text none =>
      "malformed input: " ++ text
  | .malformed text (some position) =>
      "malformed input at " ++ position.text ++ ": " ++ text
  | .unreadable text =>
      "read failed: " ++ text
  | .unexpectedKey key node =>
      "unexpected key \"" ++ key ++ "\" in " ++ node
  | .typeMismatch expected found =>
      "type mismatch: expected " ++ expected
        ++ ", found " ++ found
  | .emptyObject node =>
      node ++ " cannot be decoded from \x7b\x7d: "
        ++ "its discriminant is missing"
  | .unknownVariant sum name =>
      "unknown " ++ sum ++ " variant \"" ++ name ++ "\""
  | .misplacedTag tag found =>
      "discriminant \"" ++ tag
        ++ "\" must be the first key, found " ++ found
  | .wrongVariant expected found =>
      "expected variant \"" ++ expected
        ++ "\", found \"" ++ found ++ "\""
  | .invalidLiteral kind text =>
      "invalid " ++ kind ++ " literal `" ++ text ++ "`"
  | .missingField node key =>
      "missing field \"" ++ key ++ "\" in " ++ node
  | .wrongShape expected found =>
      "wrong shape: expected " ++ expected
        ++ ", found " ++ found

end Cause

------------------------------------------------------------
-- Paths and Errors
------------------------------------------------------------

/- One step from a value into one of its parts. -/
inductive Hop where
  | field (node key : String)
  | index (i : Nat)
  deriving DecidableEq, Repr, Inhabited

/- A cause and the path to it, from the root. -/
structure DecodeError where
  cause : Cause
  path : List Hop
  deriving DecidableEq, Repr, Inhabited

namespace DecodeError

/- An error at the value being decoded. -/
def here
    (cause : Cause) : DecodeError :=
  ⟨cause, []⟩

/- The error as seen from a node with the value in a field. -/
def within
    (e : DecodeError)
    (node key : String) : DecodeError :=
  { e with path := .field node key :: e.path }

/- The error as seen from an array with the value in it. -/
def atIndex
    (e : DecodeError)
    (i : Nat) : DecodeError :=
  { e with path := .index i :: e.path }

/-
  A hop in words.  Hops into fields are kept apart by a mark;
  an index attaches to the field before it.
-/
def hopText
    (first : Bool) : Hop → String
  | .field node key =>
      (if first then "" else " > ") ++ node ++ "." ++ key
  | .index i =>
      "[" ++ toString i ++ "]"

/- A path in words. -/
def pathText : List Hop → String
  | [] =>
      ""
  | hop :: hops =>
      hopText true hop ++ String.join (hops.map (hopText false))

/- An error in words. -/
def message
    (e : DecodeError) : String :=
  if e.path.isEmpty then
    e.cause.message
  else
    "at " ++ pathText e.path ++ " → " ++ e.cause.message

end DecodeError

end TreeWire
