import TreeWire.Declaration.Identifier

/-
  Token trees: the words, marks and literals of a declaration
  source, with brackets matched.

  Key definitions include:
    * `Delimiter`
    * `SourceLiteral`
    * `TokenTree`
    * `TokenTree.size`
-/

namespace TreeWire

namespace Declaration

------------------------------------------------------------
-- Leaves
------------------------------------------------------------

/- The kinds of brackets. -/
inductive Delimiter where
  | parenthesis
  | bracket
  | brace
  deriving DecidableEq, Repr, Inhabited

/- A literal.  Only the value of a string is of interest. -/
inductive SourceLiteral where
  | string (value : String)
  | byteString
  | cString
  | byte
  | char
  | int
  | float
  | broken
  deriving DecidableEq, Repr, Inhabited

------------------------------------------------------------
-- Trees
------------------------------------------------------------

/-
  A token tree.  A raw identifier keeps its mark, and `joint`
  says that another mark follows at once.
-/
inductive TokenTree where
  | ident (name : Identifier)
  | lifetime (name : String)
  | punct (mark : Char) (joint : Bool)
  | literal (lit : SourceLiteral)
  | group (delimiter : Delimiter) (trees : List TokenTree)
  deriving Inhabited, Repr

namespace TokenTree

mutual

/- The number of tokens in a tree. -/
def size : TokenTree → Nat
  | .group _ trees => sizeAll trees + 1
  | _ => 1

/- The number of tokens in trees. -/
def sizeAll : List TokenTree → Nat
  | [] => 0
  | tree :: trees => tree.size + sizeAll trees

end

end TokenTree

end Declaration

end TreeWire
