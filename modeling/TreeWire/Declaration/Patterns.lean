import TreeWire.Declaration.Types

/-
  The grammar of patterns.

  Key definitions include:
    * `patternRule`
    * `patternChoice`
-/

namespace TreeWire

namespace Declaration

open TreeWire.Declaration.Parser
open TreeWire.Declaration.TokenTree

------------------------------------------------------------
-- Parts
------------------------------------------------------------

/- Read patterns with a bar between them. -/
def patternChoice
    (g : Grammar) : Parser Unit := do
  let _ ← punct? "|"
  g.pattern
  let _ ← manyWhile
    (fun ts =>
      seesPunct "|" ts && !seesPunct "||" ts && !seesPunct "|=" ts)
    (do
      punct "|"
      g.pattern)

/- Read a field of a pattern in braces. -/
def fieldPattern
    (g : Grammar) : Parser Unit := do
  let _ ← outerAttributes g
  if ← punct? ".." then
    if !(← atEnd) then
      Parser.fail "unexpected token"
  else
    let _ ← word? "box"
    let named ← sees seesAnyWord
    let marked ←
      if ← word? "ref" then pure true else pure false
    let marked := (← word? "mut") || marked
    if named then
      let _ ← ident
    else
      literal
    let colon ← sees fun ts =>
      seesPunct ":" ts && !seesPunct "::" ts
    if (colon && !marked) || !named then
      punct ":"
      patternChoice g

/- Whether a bound of a range cannot start here. -/
def endsRangePattern
    (trees : List TokenTree) : Bool :=
  trees.isEmpty || seesPunct "|" trees || seesPunct "=" trees
    || (seesPunct ":" trees && !seesPunct "::" trees)
    || seesPunct "," trees || seesPunct ";" trees
    || seesWord "if" trees

/- Read a bound of a range, and whether there is one. -/
def rangePatternBound
    (g : Grammar) : Parser Bool := do
  if ← sees endsRangePattern then
    pure false
  else if ← sees seesLiteral then
    literal
    pure true
  else if ← sees (seesWord "const") then
    word "const"
    within .brace g.statements
    pure true
  else if ← sees startsPath then
    let _ ← qualifiedPath g true
    pure true
  else
    failHere "expected a pattern"

/- Read the marks of a range, and whether it needs an end. -/
def rangeMarks : Parser Bool := do
  if ← punct? "..=" then
    pure true
  else if ← punct? "..." then
    pure true
  else
    punct ".."
    pure false

/- Read a range after its start, if there is one. -/
def rangePatternRest
    (g : Grammar) : Parser Unit := do
  if ← sees (seesPunct "..") then
    let closed ← rangeMarks
    if !(← rangePatternBound g) && closed then
      failHere "expected range upper bound"

------------------------------------------------------------
-- Patterns
------------------------------------------------------------

/- Read a pattern that starts with a path. -/
def pathPattern
    (g : Grammar) : Parser Unit := do
  let (qualified, segments) ← qualifiedPath g true
  let bare := segments.all fun segment => segment.arguments.isNone
  if !qualified && bare && (← sees fun ts =>
      seesPunct "!" ts && !seesPunct "!=" ts) then
    punct "!"
    let _ ← anyGroup
  else if ← sees (seesGroup .brace) then
    let _ ← within .brace (commaList (fieldPattern g))
  else if ← sees (seesGroup .parenthesis) then
    let _ ← within .parenthesis (commaList (patternChoice g))
  else
    rangePatternRest g

/- Whether a pattern starts with a path here. -/
def startsPathPattern
    (trees : List TokenTree) : Bool :=
  let next := trees.drop 1
  (seesIdent trees
      && (seesPunct "::" next || seesPunct "!" next
        || seesGroup .brace next || seesGroup .parenthesis next
        || seesPunct ".." next))
    || (seesWord "self" trees && seesPunct "::" next)
    || seesPunct "::" trees || seesPunct "<" trees
    || seesOneOf ["Self", "super", "crate"] trees

/- Read a pattern without a choice. -/
def patternRule
    (g : Grammar) : Parser Unit := do
  if ← sees startsPathPattern then
    pathPattern g
  else if ← word? "_" then
    pure ()
  else if ← word? "box" then
    g.pattern
  else if ← sees fun ts =>
      seesPunct "-" ts || seesLiteral ts || seesWord "const" ts then
    let _ ← rangePatternBound g
    rangePatternRest g
  else if ← sees fun ts =>
      seesOneOf ["ref", "mut", "self"] ts || seesIdent ts then
    let _ ← word? "ref"
    let _ ← word? "mut"
    if !(← word? "self") then
      let _ ← ident
    if ← punct? "@" then
      g.pattern
  else if ← punct? "&" then
    let _ ← word? "mut"
    g.pattern
  else if ← sees (seesGroup .parenthesis) then
    let _ ← within .parenthesis (commaList (patternChoice g))
  else if ← sees (seesGroup .bracket) then
    let _ ← within .bracket (commaList (patternChoice g))
  else if ← sees (seesPunct "..") then
    rangePatternRest g
  else
    failHere "expected a pattern"

end Declaration

end TreeWire
