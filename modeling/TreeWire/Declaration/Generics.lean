import TreeWire.Declaration.Types

/-
  The grammar of parameters in angle brackets and of the
  conditions on them.

  Key definitions include:
    * `generics`
    * `whereClause`
-/

namespace TreeWire

namespace Declaration

open TreeWire.Declaration.Parser
open TreeWire.Declaration.TokenTree

------------------------------------------------------------
-- Parameters
------------------------------------------------------------

/- Read lifetimes with a plus between them. -/
def lifetimeSum : Parser Unit := do
  let _ ← manyWhile seesLifetime do
    lifetime
    let _ ← punct? "+"

/- Read a parameter in angle brackets. -/
def genericParam
    (g : Grammar) : Parser Unit := do
  let _ ← outerAttributes g
  if ← sees seesLifetime then
    lifetime
    if ← punct? ":" then
      lifetimeSum
  else if ← word? "const" then
    let _ ← ident
    punct ":"
    let _ ← g.type true
    if ← punct? "=" then
      if ← sees fun ts => seesLiteral ts || seesGroup .brace ts then
        constArg g
      else
        let _ ← ident
  else if ← word? "_" then
    pure ()
  else
    let _ ← ident
    if ← punct? ":" then
      boundsUntil g fun ts =>
        seesPunct "," ts || seesPunct ">" ts || seesPunct "=" ts
    if ← punct? "=" then
      let _ ← g.type true

/- Read parameters, and whether there is one. -/
def generics
    (g : Grammar) : Parser Bool := do
  if ← punct? "<" then
    let params ← commasUntil (seesPunct ">") (genericParam g)
    punct ">"
    return !params.isEmpty
  else
    pure false

------------------------------------------------------------
-- Conditions
------------------------------------------------------------

/- Whether the conditions end here. -/
def endsWhere
    (trees : List TokenTree) : Bool :=
  trees.isEmpty || seesGroup .brace trees || seesPunct "," trees
    || seesPunct ";" trees
    || (seesPunct ":" trees && !seesPunct "::" trees)
    || seesPunct "=" trees

/- Read a condition. -/
def wherePredicate
    (g : Grammar) : Parser Unit := do
  if ← sees fun ts =>
      seesLifetime ts && seesPunct ":" (ts.drop 1) then
    lifetime
    punct ":"
    lifetimeSum
  else
    let _ ← boundLifetimes
    let _ ← g.type true
    punct ":"
    boundsUntil g endsWhere

/- Read conditions, if there are any. -/
def whereClause
    (g : Grammar) : Parser Unit := do
  if ← word? "where" then
    let _ ← many do
      if ← sees endsWhere then
        pure none
      else
        wherePredicate g
        if ← punct? "," then
          pure (some ())
        else if ← sees endsWhere then
          pure (some ())
        else
          pure none

end Declaration

end TreeWire
