import TreeWire.Text.LetterCase

/-
  Snake case: the small-letter form of a type name, with an
  underscore where a word begins.

  A capital letter begins a word when it follows a small
  letter or a digit, or when it follows a capital letter and
  a small letter comes next, so that an acronym is one word.

  Key definitions include:
    * `SnakeCase.beginsWord`
    * `snakeCase`
-/

namespace TreeWire

namespace SnakeCase

------------------------------------------------------------
-- Word Boundaries
------------------------------------------------------------

/-
  Whether a capital letter begins a word, given the
  characters on its two sides.
-/
def beginsWord
    (previous next : Option Char) : Bool :=
  match previous with
  | none =>
      false
  | some p =>
      isSmall p || p.isDigit
        || (isCapital p && next.any isSmall)

------------------------------------------------------------
-- Conversion
------------------------------------------------------------

/-
  The snake-case form of the characters that follow
  `previous`.
-/
def convert
    (previous : Option Char) :
    List Char → List Char
  | [] =>
      []
  | c :: rest =>
      let tail := convert (some c) rest
      if isCapital c then
        if beginsWord previous rest.head? then
          '_' :: (smallForm c ++ tail)
        else
          smallForm c ++ tail
      else
        c :: tail

end SnakeCase

/- The snake-case form of a name. -/
def snakeCase
    (name : String) : String :=
  String.ofList (SnakeCase.convert none name.toList)

end TreeWire
