import TreeWire.Declaration.Expressions
import TreeWire.Declaration.Generics

/-
  The grammar of items and statements.

  Structures and enumerations are kept; of other items nothing
  is.

  Key definitions include:
    * `structDecl`
    * `enumDecl`
    * `itemRule`
    * `statementsRule`
    * `grammarOf`
-/

namespace TreeWire

namespace Declaration

open TreeWire.Declaration.Parser
open TreeWire.Declaration.TokenTree

------------------------------------------------------------
-- Visibility
------------------------------------------------------------

/- Whether a group restricts visibility to a named scope. -/
def isScope : List TokenTree → Bool
  | [.ident name] => ["crate", "self", "super"].contains name.text
  | _ => false

/- Read who sees an item, and whether anything says so. -/
def visibility : Parser Bool := do
  if ← word? "pub" then
    let next ← fun trees => .ok (trees.head?, trees)
    match next with
    | some (.group .parenthesis inner) =>
        if isScope inner then
          skip 1
        else if seesWord "in" inner then
          let _ ← within .parenthesis do
            word "in"
            modPath
    | _ => pure ()
    pure true
  else
    pure false

------------------------------------------------------------
-- Structures and Enumerations
------------------------------------------------------------

/- Read a field with a name. -/
def namedField
    (g : Grammar) : Parser FieldDecl := do
  let attributes ← outerAttributes g
  let _ ← visibility
  let hole ← sees (seesWord "_")
  let name ← if hole then anyWord else ident
  punct ":"
  if hole && (← sees fun ts =>
      seesWord "struct" ts
        || (seesWord "union" ts && seesGroup .brace (ts.drop 1))) then
    skip 1
    let _ ← group .brace
    return ⟨attributes, some name, .other⟩
  return ⟨attributes, some name, ← g.type true⟩

/- Read a field of a tuple. -/
def tupleField
    (g : Grammar) : Parser FieldDecl := do
  let attributes ← outerAttributes g
  let _ ← visibility
  return ⟨attributes, none, ← g.type true⟩

/- Read fields in braces. -/
def namedFields
    (g : Grammar) : Parser FieldsDecl := do
  return .named (← within .brace (commaList (namedField g)))

/- Read fields in parentheses. -/
def tupleFields
    (g : Grammar) : Parser FieldsDecl := do
  return .tuple (← within .parenthesis (commaList (tupleField g)))

/- Read the fields of a structure. -/
def structFields
    (g : Grammar) : Parser FieldsDecl := do
  let conditioned ← sees (seesWord "where")
  whereClause g
  if !conditioned && (← sees (seesGroup .parenthesis)) then
    let fields ← tupleFields g
    whereClause g
    punct ";"
    pure fields
  else if ← sees (seesGroup .brace) then
    namedFields g
  else
    punct ";"
    pure .unit

/- Read a structure after its visibility. -/
def structDecl
    (g : Grammar)
    (attributes : List Attribute) : Parser Item := do
  word "struct"
  let name ← ident
  let isGeneric ← generics g
  let fields ← structFields g
  return .structDecl ⟨attributes, name.text, isGeneric, fields⟩

/- Read a variant. -/
def variantDecl
    (g : Grammar) : Parser VariantDecl := do
  let attributes ← outerAttributes g
  let _ ← visibility
  let name ← ident
  let fields ←
    if ← sees (seesGroup .brace) then namedFields g
    else if ← sees (seesGroup .parenthesis) then tupleFields g
    else pure .unit
  if ← punct? "=" then
    g.expr true
  return ⟨attributes, name, fields⟩

/- Read an enumeration after its visibility. -/
def enumDecl
    (g : Grammar)
    (attributes : List Attribute) : Parser Item := do
  word "enum"
  let name ← ident
  let isGeneric ← generics g
  whereClause g
  let variants ← within .brace (commaList (variantDecl g))
  return .enumDecl ⟨attributes, name.text, isGeneric, variants⟩

------------------------------------------------------------
-- Functions and Values
------------------------------------------------------------

/- Read a parameter that stands for the object itself. -/
def selfParam
    (g : Grammar) : Parser Unit := do
  if ← punct? "&" then
    if ← sees seesLifetime then
      lifetime
    let _ ← word? "mut"
    word "self"
  else
    let _ ← word? "mut"
    word "self"
    if ← punct? ":" then
      let _ ← g.type true

/- Whether a parameter for the object itself starts here. -/
def startsSelf
    (trees : List TokenTree) : Bool :=
  let trees :=
    if seesPunct "&" trees then
      let rest := trees.drop 1
      if seesLifetime rest then rest.drop 1 else rest
    else
      trees
  let trees := if seesWord "mut" trees then trees.drop 1 else trees
  seesWord "self" trees && !seesPunct "::" (trees.drop 1)

/- Read a parameter of a function. -/
def functionParam
    (g : Grammar) : Parser Unit := do
  let _ ← outerAttributes g
  if ← punct? "..." then
    pure ()
  else if ← sees startsSelf then
    selfParam g
  else
    g.pattern
    punct ":"
    if !(← punct? "...") then
      let _ ← g.type true

/- Whether the head of a function starts here. -/
def startsFunction
    (trees : List TokenTree) : Bool :=
  let drop (word : String) (trees : List TokenTree) :=
    if seesWord word trees then trees.drop 1 else trees
  let trees := drop "unsafe" (drop "async" (drop "const" trees))
  if seesWord "extern" trees then
    let rest := trees.drop 1
    seesWord "fn" (if seesString rest then rest.drop 1 else rest)
  else
    seesWord "fn" trees

/- Read the head of a function. -/
def signature
    (g : Grammar) : Parser Unit := do
  let _ ← word? "const"
  let _ ← word? "async"
  let _ ← word? "unsafe"
  abi
  word "fn"
  let _ ← ident
  let _ ← generics g
  let _ ← within .parenthesis (commaList (functionParam g))
  returnType g true
  whereClause g

/- Read a function, which may have no body. -/
def function
    (g : Grammar) : Parser Unit := do
  signature g
  if !(← punct? ";") then
    block g

/- Read a constant. -/
def constItem
    (g : Grammar) : Parser Unit := do
  word "const"
  if !(← word? "_") then
    let _ ← ident
  let _ ← generics g
  punct ":"
  let _ ← g.type true
  if ← punct? "=" then
    g.expr true
  whereClause g
  punct ";"

/- Read a variable. -/
def staticItem
    (g : Grammar) : Parser Unit := do
  word "static"
  let _ ← word? "mut"
  let _ ← ident
  if ← punct? ":" then
    let _ ← g.type true
    if ← punct? "=" then
      g.expr true
  else
    punct "="
    g.expr true
  punct ";"

/- Read a name for a type. -/
def typeAlias
    (g : Grammar) : Parser Unit := do
  word "type"
  let _ ← ident
  let _ ← generics g
  if ← punct? ":" then
    boundsUntil g fun ts =>
      seesWord "where" ts || seesPunct "=" ts || seesPunct ";" ts
  whereClause g
  if ← punct? "=" then
    let _ ← g.type true
  whereClause g
  punct ";"

------------------------------------------------------------
-- Macros
------------------------------------------------------------

/- Read a macro in place of an item. -/
def macroItem : Parser Unit := do
  let _ ← modPath
  punct "!"
  if ← sees fun ts => seesIdent ts || seesWord "try" ts then
    skip 1
  let (delimiter, _) ← anyGroup
  if delimiter = .brace then
    let _ ← punct? ";"
  else
    punct ";"

/- Read a macro in place of a top item. -/
def macroTopItem : Parser Unit := do
  let _ ← modPath
  punct "!"
  if ← sees fun ts => seesIdent ts || seesWord "try" ts then
    skip 1
  let (delimiter, _) ← anyGroup
  if delimiter ≠ .brace then
    punct ";"

/- Read the declaration of a macro. -/
def macroDecl : Parser Unit := do
  word "macro"
  let _ ← ident
  if ← sees (seesGroup .parenthesis) then
    let _ ← group .parenthesis
  let _ ← group .brace

------------------------------------------------------------
-- Traits, Implementations and Modules
------------------------------------------------------------

/- Read an item of a trait or of an implementation. -/
def memberItem
    (g : Grammar) : Parser Unit := do
  let _ ← outerAttributes g
  let _ ← visibility
  if ← sees fun ts =>
      seesWord "default" ts && !seesPunct "!" (ts.drop 1)
        && !seesPunct "::" (ts.drop 1) then
    skip 1
  if ← sees fun ts =>
      seesWord "safe" ts && seesOneOf ["fn", "static"] (ts.drop 1) then
    skip 1
  if ← sees fun ts =>
      seesWord "unsafe" ts && seesWord "static" (ts.drop 1) then
    skip 1
  if ← sees startsFunction then
    function g
  else if ← sees (seesWord "const") then
    constItem g
  else if ← sees (seesWord "static") then
    staticItem g
  else if ← sees (seesWord "type") then
    typeAlias g
  else
    macroItem

/- Read the items of a trait or of an implementation. -/
def memberItems
    (g : Grammar) : Parser Unit := do
  let _ ← innerAttributes g
  let _ ← manyWhile (fun ts => !ts.isEmpty) (memberItem g)

/- Read a trait, or a name for a sum of traits. -/
def traitItem
    (g : Grammar) : Parser Unit := do
  let _ ← word? "unsafe"
  let _ ← word? "auto"
  word "trait"
  let _ ← ident
  let _ ← generics g
  if ← punct? "=" then
    boundsUntil g fun ts => seesWord "where" ts || seesPunct ";" ts
    whereClause g
    punct ";"
  else
    if ← punct? ":" then
      boundsUntil g fun ts =>
        seesWord "where" ts || seesGroup .brace ts
    whereClause g
    within .brace (memberItems g)

/- Whether parameters stand after `impl`. -/
def startsGenerics
    (trees : List TokenTree) : Bool :=
  let next := trees.drop 1
  let third := trees.drop 2
  seesPunct "<" trees
    && (seesPunct ">" next || seesPunct "#" next
      || seesWord "const" next
      || ((seesIdent next || seesLifetime next)
        && (seesPunct ":" third || seesPunct "," third
          || seesPunct ">" third || seesPunct "=" third)))

/- Read an implementation. -/
def implItem
    (g : Grammar) : Parser Unit := do
  let _ ← word? "default"
  let _ ← word? "unsafe"
  word "impl"
  if ← sees startsGenerics then
    let _ ← generics g
  let _ ← word? "const"
  let _ ← punct? "!"
  let _ ← g.type true
  if ← word? "for" then
    let _ ← g.type true
  whereClause g
  within .brace (memberItems g)

/- Read a module. -/
def moduleItem
    (g : Grammar) : Parser Unit := do
  let _ ← word? "unsafe"
  word "mod"
  if !(← word? "try") then
    let _ ← ident
  if !(← punct? ";") then
    within .brace do
      let _ ← innerAttributes g
      let _ ← manyWhile (fun ts => !ts.isEmpty) g.item

------------------------------------------------------------
-- Imports
------------------------------------------------------------

/- Read a name after `as`. -/
def asName : Parser Unit := do
  if ← word? "as" then
    if !(← word? "_") then
      let _ ← ident

/- Read the tree of an import, so many levels deep at most. -/
def importTree : Nat → Parser Unit
  | 0 =>
      Parser.fail "nested too deep"
  | depth + 1 => do
      if ← punct? "*" then
        pure ()
      else if ← sees (seesGroup .brace) then
        let _ ← within .brace (commaList do
          let _ ← punct? "::"
          importTree depth)
      else
        if ← sees (seesOneOf ["self", "super", "crate", "try"]) then
          skip 1
        else
          let _ ← ident
        if ← punct? "::" then
          importTree depth
        else
          asName

/- Read an import. -/
def importItem : Parser Unit := do
  word "use"
  let _ ← punct? "::"
  fun trees => importTree (sizeAll trees + 1) trees
  punct ";"

/- Read an item that starts with `extern`. -/
def foreignItem
    (g : Grammar) : Parser Unit := do
  let _ ← word? "unsafe"
  word "extern"
  if ← word? "crate" then
    if !(← word? "self") then
      let _ ← ident
    asName
    punct ";"
  else
    if ← sees seesString then
      skip 1
    within .brace (memberItems g)

------------------------------------------------------------
-- Items
------------------------------------------------------------

/- Read an item that is not kept. -/
def otherItem
    (g : Grammar)
    (visible : Bool) : Parser Unit := do
  let next ← fun trees => .ok (trees.drop 1, trees)
  if ← sees startsFunction then
    function g
  else if ← sees (seesWord "extern") then
    foreignItem g
  else if ← sees (seesWord "use") then
    importItem
  else if ← sees (seesWord "static") then
    staticItem g
  else if ← sees (seesWord "const") then
    constItem g
  else if ← sees (seesWord "unsafe") then
    if seesOneOf ["trait", "auto"] next then
      traitItem g
    else if seesWord "impl" next then
      implItem g
    else if seesWord "mod" next then
      moduleItem g
    else
      foreignItem g
  else if ← sees (seesWord "mod") then
    moduleItem g
  else if ← sees (seesWord "type") then
    typeAlias g
  else if ← sees fun ts =>
      seesWord "union" ts && seesIdent (ts.drop 1) then
    word "union"
    let _ ← ident
    let _ ← generics g
    whereClause g
    let _ ← namedFields g
  else if ← sees fun ts =>
      seesWord "trait" ts
        || (seesWord "auto" ts && seesWord "trait" (ts.drop 1)) then
    traitItem g
  else if ← sees fun ts =>
      seesWord "impl" ts
        || (seesWord "default" ts && !seesPunct "!" (ts.drop 1)) then
    implItem g
  else if ← sees (seesWord "macro") then
    macroDecl
  else if visible then
    Parser.fail "expected an item"
  else
    macroTopItem

/- Read an item after its attributes. -/
def itemAfter
    (g : Grammar)
    (attributes : List Attribute) : Parser Item := do
  let visible ← visibility
  if ← sees (seesWord "struct") then
    structDecl g attributes
  else if ← sees (seesWord "enum") then
    enumDecl g attributes
  else
    otherItem g visible
    pure .other

/- Read an item. -/
def itemRule
    (g : Grammar) : Parser Item := do
  itemAfter g (← outerAttributes g)

------------------------------------------------------------
-- Statements
------------------------------------------------------------

/- Whether a value rather than an item starts with `const`. -/
def startsConstValue
    (next : List TokenTree) : Bool :=
  let third := next.drop 1
  seesGroup .brace next || seesOneOf ["static", "move"] next
    || seesPunct "|" next
    || (seesWord "async" next
      && !seesOneOf ["unsafe", "extern", "fn"] third)

/- Whether an item starts here among statements. -/
def startsItem
    (trees : List TokenTree) : Bool :=
  let next := trees.drop 1
  seesOneOf ["pub", "extern", "use", "fn", "mod", "type", "struct",
      "enum", "trait", "impl", "macro"] trees
    || (seesWord "crate" trees && !seesPunct "::" next)
    || (seesWord "static" trees
      && (seesWord "mut" next || seesIdent next))
    || (seesWord "const" trees && !startsConstValue next)
    || (seesWord "unsafe" trees && !seesGroup .brace next)
    || (seesWord "async" trees
      && seesOneOf ["unsafe", "extern", "fn"] next)
    || (seesWord "union" trees && seesIdent next)
    || (seesWord "auto" trees && seesWord "trait" next)
    || (seesWord "default" trees
      && seesOneOf ["unsafe", "impl"] next)

/- Read a declaration of variables. -/
def letStatement
    (g : Grammar) : Parser Unit := do
  word "let"
  g.pattern
  if ← punct? ":" then
    let _ ← g.type true
  if ← punct? "=" then
    g.expr true
    if ← word? "else" then
      block g
  punct ";"

/- The kinds of macros that a statement starts with. -/
inductive MacroStart where
  | none
  | item
  | braced
  deriving DecidableEq

/- The kind of macro that a statement starts with. -/
def macroStart : Parser MacroStart :=
  fun trees =>
    match modPath trees with
    | .error _ =>
        .ok (.none, trees)
    | .ok (_, rest) =>
        let next := rest.drop 1
        let third := rest.drop 2
        if !seesPunct "!" rest then
          .ok (.none, trees)
        else if seesIdent next || seesWord "try" next then
          .ok (.item, trees)
        else if seesGroup .brace next
            && !((seesPunct "." third && !seesPunct ".." third)
              || seesPunct "?" third) then
          .ok (.braced, trees)
        else
          .ok (.none, trees)

/- Read a statement, and whether a semicolon has to follow. -/
def statement
    (g : Grammar) : Parser Bool := do
  let attributes ← outerAttributes g
  match ← macroStart with
  | .braced =>
      let _ ← modPath
      punct "!"
      let _ ← group .brace
      let _ ← punct? ";"
      pure false
  | .item =>
      let _ ← itemAfter g attributes
      pure false
  | .none =>
      if ← sees (seesWord "let") then
        letStatement g
        pure false
      else if ← sees startsItem then
        let _ ← itemAfter g attributes
        pure false
      else
        let ended ← boundaryRule g
        if ← punct? ";" then
          pure false
        else
          pure !ended

/- Read statements to the end. -/
def statementsRule
    (g : Grammar) : Parser Unit := do
  let _ ← innerAttributes g
  let _ ← manyWhile (fun ts => !ts.isEmpty) do
    if !(← punct? ";") then
      if (← statement g) && !(← atEnd) then
        Parser.fail "unexpected token, expected `;`"

------------------------------------------------------------
-- The Grammar
------------------------------------------------------------

/- The grammar for so many parts within one another. -/
def grammarOf : Nat → Grammar
  | 0 =>
      Grammar.exhausted
  | depth + 1 =>
      let g := grammarOf depth
      { type := typeRule g
        expr := exprRule g
        unary := unaryRule g
        boundary := boundaryRule g
        pattern := patternRule g
        statements := statementsRule g
        item := itemRule g }

/- The grammar that is deep enough for trees. -/
def grammarFor
    (trees : List TokenTree) : Grammar :=
  grammarOf (sizeAll trees + 8)

end Declaration

end TreeWire
