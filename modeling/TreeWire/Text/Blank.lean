import TreeWire.Text.CharTable

/-
  Blank characters: the characters with the property
  White_Space, and lines that hold nothing else.

  Key definitions include:
    * `blankTable`
    * `isBlank`
    * `isBlankLine`
-/

namespace TreeWire

------------------------------------------------------------
-- Blank Characters
------------------------------------------------------------

/- The characters with the property White_Space. -/
def blankTable : CharTable := #[
    ⟨0x09, 0x0d, 1⟩, ⟨0x20, 0x20, 1⟩, ⟨0x85, 0x85, 1⟩,
    ⟨0xa0, 0xa0, 1⟩, ⟨0x1680, 0x1680, 1⟩,
    ⟨0x2000, 0x200a, 1⟩, ⟨0x2028, 0x2029, 1⟩,
    ⟨0x202f, 0x202f, 1⟩, ⟨0x205f, 0x205f, 1⟩,
    ⟨0x3000, 0x3000, 1⟩]

/- Whether a character separates words. -/
def isBlank
    (c : Char) : Bool :=
  blankTable.holds c

/- Whether a line holds blank characters only. -/
def isBlankLine
    (line : String) : Bool :=
  line.toList.all isBlank

end TreeWire
