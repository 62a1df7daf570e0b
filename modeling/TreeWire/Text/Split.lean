/-
  Cutting characters at a mark, and joining them again.

  Key definitions include:
    * `splitAtMark`
    * `joinWithMark`
-/

namespace TreeWire

------------------------------------------------------------
-- Cutting and Joining
------------------------------------------------------------

/- Cut characters at every mark. -/
def splitAtMark
    (mark : Char) : List Char → List (List Char)
  | [] =>
      [[]]
  | c :: rest =>
      if c = mark then
        [] :: splitAtMark mark rest
      else
        match splitAtMark mark rest with
        | [] => [[c]]
        | part :: parts => (c :: part) :: parts

/- Put a mark between parts. -/
def joinWithMark
    (mark : Char) : List (List Char) → List Char
  | [] => []
  | [part] => part
  | part :: parts => part ++ mark :: joinWithMark mark parts

end TreeWire
