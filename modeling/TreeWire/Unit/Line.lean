/-
  Lines of a generated unit.

  A line is made of pieces, so that what is quoted and what is
  called can be told from the rest.

  Key definitions include:
    * `Piece`
    * `Line`
    * `Method`
    * `Line.text`
-/

namespace TreeWire

------------------------------------------------------------
-- Pieces
------------------------------------------------------------

/-
  A piece of a line: code, a text in quotes, or the name of a
  method that is called.
-/
inductive Piece where
  | code (text : String)
  | literal (value : String)
  | call (method : String)
  deriving DecidableEq, Repr, Inhabited

namespace Piece

/- A piece as it is written. -/
def text : Piece → String
  | .code text => text
  | .literal value => "\"" ++ value ++ "\""
  | .call method => method

end Piece

------------------------------------------------------------
-- Lines
------------------------------------------------------------

/- A line: how far it is indented, and its pieces. -/
structure Line where
  depth : Nat
  pieces : List Piece
  deriving DecidableEq, Repr, Inhabited

namespace Line

/- A line of code. -/
def plain
    (depth : Nat)
    (text : String) : Line :=
  ⟨depth, [.code text]⟩

/- A line without anything on it. -/
def blank : Line :=
  ⟨0, []⟩

/- The blanks in front of a line. -/
def indent : Nat → String
  | 0 => ""
  | depth + 1 => "    " ++ indent depth

/- A line as it is written, with its end. -/
def text
    (line : Line) : String :=
  indent line.depth ++ String.join (line.pieces.map Piece.text)
    ++ "\n"

end Line

------------------------------------------------------------
-- Methods
------------------------------------------------------------

/- A method: its name, the type it returns, and its body. -/
structure Method where
  name : String
  result : String
  body : List Line
  deriving DecidableEq, Repr, Inhabited

namespace Method

/- The lines of a method. -/
def lines
    (m : Method) : List Line :=
  .plain 1 ("fn " ++ m.name ++ "(&mut self) -> Result<" ++ m.result
      ++ ", DecodeError> \x7b")
    :: m.body ++ [.plain 1 "\x7d"]

end Method

end TreeWire
