import TreeWire.Declaration.Attributes

/-
  The grammar of types, paths and bounds.

  Key definitions include:
    * `pathSegment`
    * `genericArgs`
    * `path`
    * `qualifiedPath`
    * `bound`
    * `typeRule`
-/

namespace TreeWire

namespace Declaration

open TreeWire.Declaration.Parser
open TreeWire.Declaration.TokenTree

------------------------------------------------------------
-- Arguments
------------------------------------------------------------

/- Read a constant that stands as an argument. -/
def constArg
    (g : Grammar) : Parser Unit := do
  if ← sees seesLiteral then
    literal
  else
    within .brace g.statements

/- Whether a bound starts here. -/
def startsBound
    (trees : List TokenTree) : Bool :=
  seesAnyWord trees || seesPunct "::" trees
    || seesPunct "?" trees || seesLifetime trees
    || seesGroup .parenthesis trees || seesPunct "~" trees
    || seesGroup .bracket trees

/- Read lifetimes bound by `for`, if there are any. -/
def boundLifetimes : Parser Bool := do
  if ← sees (seesWord "for") then
    word "for"
    punct "<"
    let _ ← commasUntil (seesPunct ">") do
      lifetime
      if ← punct? ":" then
        let _ ← manyWhile seesLifetime do
          lifetime
          let _ ← punct? "+"
    punct ">"
    pure true
  else
    pure false

/- Whether a type is one name that an equation can bind. -/
def isName : TypeExpr → Bool
  | .path false [_] => true
  | _ => false

/- Read what stands after an arrow, if there is one. -/
def returnType
    (g : Grammar)
    (plus : Bool) : Parser Unit := do
  if ← punct? "->" then
    let _ ← g.type plus

/-
  Read a segment of a path.  In an expression, arguments need
  `::` in front of them.
-/
def pathSegment
    (args : Parser (List GenericArg))
    (inExpr : Bool) : Parser PathSegment := do
  if ← sees (seesOneOf ["super", "self", "crate", "try"]) then
    return .mk (← anyWord).text none
  let name ←
    if ← sees (seesWord "Self") then anyWord else ident
  let direct ← sees fun ts =>
    !inExpr && seesPunct "<" ts && !seesPunct "<=" ts
  let turbofish ← sees fun ts =>
    seesPunct "::" ts && seesPunct "<" (ts.drop 2)
  if direct || turbofish then
    let _ ← punct? "::"
    return .mk name.text (some (← args))
  else
    return .mk name.text none

/- Read the segments of a path after the first. -/
def pathRest
    (args : Parser (List GenericArg))
    (inExpr : Bool) : Parser (List PathSegment) :=
  manyWhile
    (fun ts =>
      seesPunct "::" ts && !seesGroup .parenthesis (ts.drop 2))
    (do
      punct "::"
      pathSegment args inExpr)

/- Read a path with arguments. -/
def pathWith
    (args : Parser (List GenericArg))
    (inExpr : Bool) : Parser (List PathSegment) := do
  let _ ← punct? "::"
  let first ← pathSegment args inExpr
  return first :: (← pathRest args inExpr)

/-
  Read types in parentheses after the last segment of a path,
  as in the bound `F(A) -> B`.
-/
def callArgs
    (g : Grammar)
    (segments : List PathSegment) : Parser Unit := do
  let bare :=
    match segments.getLast? with
    | some segment => segment.arguments.isNone
    | none => false
  let follows ← sees fun ts =>
    seesGroup .parenthesis ts
      || (seesPunct "::" ts && seesGroup .parenthesis (ts.drop 2))
  if bare && follows then
    let _ ← punct? "::"
    let _ ← within .parenthesis (commaList (g.type true))
    returnType g false

/- Read a trait as a bound. -/
def traitBound
    (g : Grammar)
    (args : Parser (List GenericArg)) : Parser Unit := do
  let _ ← boundLifetimes
  if ← sees (seesGroup .bracket) then
    within .bracket (word "const")
  else
    if ← punct? "~" then
      word "const"
    else
      let _ ← word? "const"
  let _ ← word? "async"
  if ← punct? "?" then
    let _ ← boundLifetimes
  callArgs g (← pathWith args false)

/- Read a bound, and whether it is a trait. -/
def boundWith
    (g : Grammar)
    (args : Parser (List GenericArg)) : Parser Bool := do
  if ← sees seesLifetime then
    lifetime
    pure false
  else if ← sees (seesWord "use") then
    word "use"
    punct "<"
    let _ ← commasUntil (seesPunct ">") do
      if ← sees seesLifetime then lifetime
      else let _ ← anyWord
    punct ">"
    pure false
  else if ← sees (seesGroup .parenthesis) then
    within .parenthesis (traitBound g args)
    pure true
  else
    traitBound g args
    pure true

/- Read bounds up to a condition. -/
def boundsUntilWith
    (g : Grammar)
    (args : Parser (List GenericArg))
    (stop : List TokenTree → Bool) : Parser Unit := do
  if !(← sees stop) then
    let _ ← boundWith g args
    let _ ← many do
      if ← punct? "+" then
        if ← sees stop then
          pure (some ())
        else
          let _ ← boundWith g args
          pure (some ())
      else
        pure none

/- Read an argument of a path. -/
def genericArgWith
    (g : Grammar)
    (args : Parser (List GenericArg)) : Parser GenericArg := do
  if ← sees fun ts =>
      seesLifetime ts && !seesPunct "+" (ts.drop 1) then
    lifetime
    return .other
  if ← sees fun ts => seesLiteral ts || seesGroup .brace ts then
    constArg g
    return .other
  let type ← g.type true
  if isName type then
    if ← punct? "=" then
      if ← sees fun ts => seesLiteral ts || seesGroup .brace ts then
        constArg g
      else
        let _ ← g.type true
      return .other
    if ← punct? ":" then
      boundsUntilWith g args fun ts =>
        seesPunct "," ts || seesPunct ">" ts
      return .other
  return .type type

/-
  Read arguments in angle brackets.  The bounds of an argument
  can have arguments again, so many levels deep.
-/
def genericArgsWithin
    (g : Grammar) : Nat → Parser (List GenericArg)
  | 0 =>
      Parser.fail "nested too deep"
  | depth + 1 => do
      punct "<"
      let args ← commasUntil (seesPunct ">")
        (genericArgWith g (genericArgsWithin g depth))
      punct ">"
      pure args

/- Read arguments in angle brackets. -/
def genericArgs
    (g : Grammar) : Parser (List GenericArg) :=
  fun trees => genericArgsWithin g (trees.length + 1) trees

------------------------------------------------------------
-- Paths and Bounds
------------------------------------------------------------

/- Read a path. -/
def path
    (g : Grammar)
    (inExpr : Bool) : Parser (List PathSegment) :=
  pathWith (genericArgs g) inExpr

/- Read a path in a type, and whether a type is in front. -/
def qualifiedPath
    (g : Grammar)
    (inExpr : Bool) : Parser (Bool × List PathSegment) := do
  if ← punct? "<" then
    let _ ← g.type true
    if ← word? "as" then
      let _ ← path g false
    punct ">"
    punct "::"
    let first ← pathSegment (genericArgs g) inExpr
    let _ ← manyWhile (seesPunct "::") do
      punct "::"
      pathSegment (genericArgs g) inExpr
    return (true, [first])
  else
    return (false, ← path g inExpr)

/- Read a bound, and whether it is a trait. -/
def bound
    (g : Grammar) : Parser Bool :=
  boundWith g (genericArgs g)

/- Read bounds up to a condition. -/
def boundsUntil
    (g : Grammar)
    (stop : List TokenTree → Bool) : Parser Unit :=
  boundsUntilWith g (genericArgs g) stop

/- Read a sum of bounds, one of which has to be a trait. -/
def traitSum
    (g : Grammar)
    (plus : Bool) : Parser Unit := do
  let first ← bound g
  let others ←
    if plus then
      many do
        if ← punct? "+" then
          if ← sees startsBound then
            return some (← bound g)
          else
            return some false
        else
          pure none
    else
      pure []
  if !((first :: others).any id) then
    Parser.fail "at least one trait is required"

/- Read more bounds after one that was read as a type. -/
def moreBounds
    (g : Grammar) : Parser Unit := do
  let _ ← many do
    if ← punct? "+" then
      if ← sees startsBound then
        let _ ← bound g
      pure (some ())
    else
      pure none

------------------------------------------------------------
-- Types
------------------------------------------------------------

/- Read the convention of a foreign function. -/
def abi : Parser Unit := do
  if ← word? "extern" then
    if ← sees seesString then
      let _ ← string

/- Read a parameter of a function type. -/
def functionTypeParam
    (g : Grammar) : Parser Unit := do
  let _ ← outerAttributes g
  if ← sees (seesPunct "...") then
    punct "..."
  else
    if ← sees fun ts =>
        seesWord "mut" ts && seesWord "self" (ts.drop 1) then
      word "mut"
    if ← sees fun ts =>
        (seesIdent ts || seesOneOf ["_", "self"] ts)
          && seesPunct ":" (ts.drop 1)
          && !seesPunct "::" (ts.drop 1) then
      skip 2
    if ← sees (seesPunct "...") then
      punct "..."
    else
      let _ ← g.type true

/- Read a function type, after its lifetimes. -/
def functionType
    (g : Grammar) : Parser Unit := do
  let _ ← word? "unsafe"
  abi
  word "fn"
  let _ ← within .parenthesis
    (commaList (functionTypeParam g))
  returnType g false

/- Read the trees in the parentheses of a type. -/
def parenthesizedType
    (g : Grammar) : Parser (Option TypeExpr) := do
  if ← atEnd then
    return none
  if ← sees seesLifetime then
    traitSum g true
    return none
  if ← sees (seesPunct "?") then
    let _ ← bound g
    return none
  let first ← g.type true
  if ← atEnd then
    return some first
  punct ","
  let _ ← commaList (g.type true)
  return none

/- Read the trees in the brackets of a type. -/
def bracketedType
    (g : Grammar) : Parser Unit := do
  let _ ← g.type true
  if ← punct? ";" then
    g.expr true

/- Read a type that starts with a path. -/
def pathType
    (g : Grammar)
    (plus lifetimes : Bool) : Parser TypeExpr := do
  let rooted ← sees (seesPunct "::")
  let (qualified, segments) ← qualifiedPath g false
  if qualified then
    return .other
  let bare := segments.all fun segment => segment.arguments.isNone
  if bare && (← sees fun ts =>
      seesPunct "!" ts && !seesPunct "!=" ts) then
    punct "!"
    let _ ← anyGroup
    return .other
  if lifetimes || (plus && (← sees (seesPunct "+"))) then
    if plus then
      moreBounds g
    return .other
  return .path rooted segments

/- Whether a path starts here. -/
def startsPath
    (trees : List TokenTree) : Bool :=
  seesIdent trees || seesOneOf pathWords trees
    || seesPunct "::" trees || seesPunct "<" trees

/- Read a type. -/
def typeRule
    (g : Grammar)
    (plus : Bool) : Parser TypeExpr := do
  let lifetimes ← boundLifetimes
  if lifetimes && !(← sees fun ts =>
      seesIdent ts || seesOneOf ("fn" :: "unsafe" :: "extern"
        :: pathWords) ts) then
    Parser.fail "unexpected token"
  if ← sees (seesGroup .parenthesis) then
    let inner ← within .parenthesis (parenthesizedType g)
    match inner with
    | some (.path _ _) =>
        if plus && (← sees (seesPunct "+")) then
          moreBounds g
    | _ => pure ()
    return .other
  else if ← sees (seesOneOf ["fn", "unsafe", "extern"]) then
    functionType g
    return .other
  else if ← sees startsPath then
    pathType g plus lifetimes
  else if ← word? "dyn" then
    let _ ← punct? "*"
    traitSum g plus
    return .other
  else if ← word? "impl" then
    traitSum g plus
    return .other
  else if ← sees (seesGroup .bracket) then
    within .bracket (bracketedType g)
    return .other
  else if ← punct? "*" then
    if !(← word? "const") then
      word "mut"
    let _ ← g.type false
    return .other
  else if ← punct? "&" then
    if ← sees seesLifetime then
      lifetime
    let _ ← word? "mut"
    let _ ← g.type false
    return .other
  else if ← punct? "!" then
    return .other
  else if ← word? "_" then
    return .other
  else if ← sees seesLifetime then
    traitSum g plus
    return .other
  else
    failHere "expected a type"

end Declaration

end TreeWire
