import TreeWire.Declaration.Grammar

/-
  The grammar of attributes, and of paths without arguments.

  Key definitions include:
    * `modPath`
    * `outerAttributes`
    * `innerAttributes`
-/

namespace TreeWire

namespace Declaration

open TreeWire.Declaration.Parser
open TreeWire.Declaration.TokenTree

------------------------------------------------------------
-- Simple Paths
------------------------------------------------------------

/- Words that a path may start with besides identifiers. -/
def pathWords : List String :=
  ["super", "self", "Self", "crate"]

/- Read a segment, and whether another one has to follow. -/
def modSegment : Parser (Option (String × Bool)) := do
  if ← sees fun ts => seesIdent ts || seesOneOf pathWords ts then
    let name ← anyWord
    return some (name.text, ← punct? "::")
  else
    pure none

/-
  Read the segments of a path without arguments, so many at
  most.
-/
def modSegments : Nat → Parser (List String)
  | 0 =>
      pure []
  | count + 1 => do
      match ← modSegment with
      | none => failHere "expected path segment after `::`"
      | some (name, false) => pure [name]
      | some (name, true) =>
          return name :: (← modSegments count)

/- Read a path without arguments, and if `::` is in front. -/
def modPath : Parser (Bool × List String) := do
  let rooted ← punct? "::"
  if ← sees fun ts => seesIdent ts || seesOneOf pathWords ts then
    let segments ← fun trees => modSegments (trees.length + 1) trees
    return (rooted, segments)
  else
    let _ ← ident
    return (rooted, [])

------------------------------------------------------------
-- Attributes
------------------------------------------------------------

/- Read the value of an attribute. -/
def attributeValue
    (g : Grammar) : Parser Unit := do
  if ← sees fun ts => (afterLiteral? ts).any List.isEmpty then
    literal
  else if ← sees fun ts =>
      seesPunct "#" ts && seesGroup .bracket (ts.drop 1) then
    failHere "unexpected attribute inside of attribute"
  else
    g.expr true

/- Read what stands in the brackets of an attribute. -/
def attributeContent
    (g : Grammar) : Parser Attribute := do
  let (rooted, path) ←
    if ← word? "unsafe" then
      pure (false, ["unsafe"])
    else
      modPath
  if ← sees fun ts =>
      seesGroup .parenthesis ts || seesGroup .bracket ts
        || seesGroup .brace ts then
    let (_, trees) ← anyGroup
    return ⟨rooted, path, .list trees⟩
  else if ← punct? "=" then
    attributeValue g
    return ⟨rooted, path, .value⟩
  else
    return ⟨rooted, path, .absent⟩

/- Read the attributes in front of something. -/
def outerAttributes
    (g : Grammar) : Parser (List Attribute) :=
  manyWhile (seesPunct "#") do
    punct "#"
    within .bracket (attributeContent g)

/- Read the attributes at the start of something. -/
def innerAttributes
    (g : Grammar) : Parser (List Attribute) :=
  manyWhile
    (fun ts => seesPunct "#" ts && seesPunct "!" (ts.drop 1))
    (do
      punct "#"
      punct "!"
      within .bracket (attributeContent g))

end Declaration

end TreeWire
