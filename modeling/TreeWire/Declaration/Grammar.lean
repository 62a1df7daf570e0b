import TreeWire.Declaration.Model
import TreeWire.Declaration.Parser

/-
  The parsers that call one another.

  A rule of the grammar is a function of a `Grammar`, which
  holds the parsers for the parts that nest.  A rule calls one
  of them only after it has read a token or gone into a group,
  so as many grammars within one another as there are tokens
  read every source.

  Key definitions include:
    * `Grammar`
    * `Grammar.exhausted`
-/

namespace TreeWire

namespace Declaration

------------------------------------------------------------
-- Grammars
------------------------------------------------------------

/-
  The parsers of nested parts.  `type` takes whether a sum of
  bounds may stand, `expr` and `unary` whether a structure in
  braces may.  `boundary` is an expression where a statement
  may stand and says if it ends with its braces.  `statements`
  reads to the end.
-/
structure Grammar where
  type : Bool → Parser TypeExpr
  expr : Bool → Parser Unit
  unary : Bool → Parser Unit
  boundary : Parser Bool
  pattern : Parser Unit
  statements : Parser Unit
  item : Parser Item

namespace Grammar

/- The grammar that reads nothing. -/
def exhausted : Grammar where
  type := fun _ => Parser.fail "nested too deep"
  expr := fun _ => Parser.fail "nested too deep"
  unary := fun _ => Parser.fail "nested too deep"
  boundary := Parser.fail "nested too deep"
  pattern := Parser.fail "nested too deep"
  statements := Parser.fail "nested too deep"
  item := Parser.fail "nested too deep"

end Grammar

end Declaration

end TreeWire
