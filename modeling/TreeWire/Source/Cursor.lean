import TreeWire.DecodeError

/-
  A cursor in a sequence of bytes, and the computations that
  read through it.

  The input may break off with a failure in place of its end;
  the failure shows when the byte after the last one is first
  needed.

  Key definitions include:
    * `Cursor`
    * `Lexing`
    * `Cursor.peek`
    * `Cursor.bump`
    * `Cursor.takeWhile`
-/

namespace TreeWire

------------------------------------------------------------
-- Cursors
------------------------------------------------------------

/-
  The bytes not yet read, the message of the failure that
  stands in place of the end of input, and the position of the
  next byte.
-/
structure Cursor where
  unread : List UInt8
  fault : Option String
  position : Position
  deriving DecidableEq, Repr, Inhabited

/-
  A computation that reads bytes.  What it has read stays read
  when it fails.
-/
abbrev Lexing :=
  ExceptT DecodeError (StateM Cursor)

namespace Cursor

/- A cursor before the first byte. -/
def start
    (bytes : List UInt8)
    (fault : Option String) : Cursor :=
  ⟨bytes, fault, Position.start⟩

/- The next byte, which stays unread. -/
def peek : Lexing (Option UInt8) :=
  fun c =>
    match c.unread, c.fault with
    | byte :: _, _ => (.ok (some byte), c)
    | [], some message => (.error (.here (.unreadable message)), c)
    | [], none => (.ok none, c)

/- Read one byte. -/
def bump : Lexing (Option UInt8) :=
  fun c =>
    match c.unread, c.fault with
    | byte :: rest, fault =>
        (.ok (some byte),
          ⟨rest, fault, c.position.advance byte⟩)
    | [], some message =>
        (.error (.here (.unreadable message)), c)
    | [], none =>
        (.ok none, c)

/- The position of the next byte. -/
def place : Lexing Position :=
  fun c => (.ok c.position, c)

/- The bytes not yet read. -/
def ahead : Lexing (List UInt8) :=
  fun c => (.ok c.unread, c)

/-
  Read the bytes that satisfy a test, and look at the byte
  after them.
-/
def takeWhile
    (test : UInt8 → Bool) : Lexing (List UInt8) := do
  let taken ← fun c =>
    let taken := c.unread.takeWhile test
    (.ok taken,
      { c with
        unread := c.unread.dropWhile test
        position := taken.foldl Position.advance c.position })
  let _ ← peek
  pure taken

/- Fail with malformed input at a position. -/
def malformed
    {α : Type}
    (message : String)
    (position : Position) : Lexing α :=
  throw (.here (.malformed message (some position)))

end Cursor

end TreeWire
