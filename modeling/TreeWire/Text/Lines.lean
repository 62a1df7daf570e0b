/-
  The lines of a text.

  A line ends at a line feed, with or without a carriage
  return in front of it.  The last line needs no end, and a
  carriage return at the end of the text belongs to it.

  Key definitions include:
    * `linesOf`
    * `textLines`
-/

namespace TreeWire

------------------------------------------------------------
-- Lines
------------------------------------------------------------

/- The lines of characters. -/
def linesOf : List Char → List (List Char)
  | [] =>
      []
  | '\n' :: rest =>
      [] :: linesOf rest
  | '\r' :: '\n' :: rest =>
      [] :: linesOf rest
  | c :: rest =>
      match linesOf rest with
      | [] => [[c]]
      | line :: lines => (c :: line) :: lines

/- The lines of a text. -/
def textLines
    (text : String) : List String :=
  (linesOf text.toList).map String.ofList

end TreeWire
