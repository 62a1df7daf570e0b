import TreeWire.Declaration.Items
import TreeWire.Declaration.Lexer

/-
  Whole declaration sources.

  A source may start with a byte order mark and with a line
  that names an interpreter; that line is dropped unless it is
  an attribute.

  Key definitions include:
    * `dropInterpreterLine`
    * `items?`
-/

namespace TreeWire

namespace Declaration

open TreeWire.Declaration.Parser
open TreeWire.Declaration.TokenTree

------------------------------------------------------------
-- The First Line
------------------------------------------------------------

/- Drop blanks and comments, in so many steps at most. -/
def dropBlanks : Nat → List Char → List Char
  | 0, cs =>
      cs
  | _, [] =>
      []
  | steps + 1, c :: cs =>
      let all := c :: cs
      if startsLineComment all then
        dropBlanks steps (lineComment cs).2
      else if startsBlockComment all then
        match blockComment? 0 [] all with
        | some (_, rest) => dropBlanks steps rest
        | none => all
      else if isSeparator c then
        dropBlanks steps cs
      else
        all

/- Drop a first line that names an interpreter. -/
def dropInterpreterLine
    (cs : List Char) : List Char :=
  match cs with
  | '#' :: '!' :: rest =>
      if (dropBlanks rest.length rest).head? = some '[' then
        cs
      else
        cs.dropWhile (· ≠ '\n')
  | _ =>
      cs

------------------------------------------------------------
-- Sources
------------------------------------------------------------

/- Read the items of a source. -/
def sourceItems
    (g : Grammar) : Parser (List Item) := do
  let _ ← innerAttributes g
  manyWhile (fun ts => !ts.isEmpty) (itemRule g)

/- The items of a source, if it is well formed. -/
def items?
    (source : String) : Option (List Item) := do
  let cs := dropInterpreterLine (dropByteOrderMark source.toList)
  let trees ← tokenTrees? cs
  match sourceItems (grammarFor trees) trees with
  | .ok (items, []) => some items
  | _ => none

end Declaration

end TreeWire
