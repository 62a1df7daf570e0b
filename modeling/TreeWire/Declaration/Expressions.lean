import TreeWire.Declaration.Patterns

/-
  The grammar of expressions.

  Nothing is kept of an expression: a rule only reads it.  An
  expression is read as operands with operators between them,
  because precedence does not decide what is an expression.

  Key definitions include:
    * `atom`
    * `trailers`
    * `unaryRule`
    * `exprRule`
    * `boundaryRule`
-/

namespace TreeWire

namespace Declaration

open TreeWire.Declaration.Parser
open TreeWire.Declaration.TokenTree

------------------------------------------------------------
-- Looking Ahead
------------------------------------------------------------

/- Whether an expression starts here. -/
def startsExpr
    (trees : List TokenTree) : Bool :=
  (seesAnyWord trees && !seesWord "as" trees)
    || seesGroup .parenthesis trees || seesGroup .bracket trees
    || seesGroup .brace trees || seesLiteral trees
    || (seesPunct "!" trees && !seesPunct "!=" trees)
    || (seesPunct "-" trees && !seesPunct "-=" trees
      && !seesPunct "->" trees)
    || (seesPunct "*" trees && !seesPunct "*=" trees)
    || (seesPunct "|" trees && !seesPunct "|=" trees)
    || (seesPunct "&" trees && !seesPunct "&=" trees)
    || seesPunct ".." trees
    || (seesPunct "<" trees && !seesPunct "<=" trees
      && !seesPunct "<<=" trees)
    || seesPunct "::" trees || seesLifetime trees
    || seesPunct "#" trees

/- Whether a closure starts here. -/
def startsClosure
    (trees : List TokenTree) : Bool :=
  let next := trees.drop 1
  let third := trees.drop 2
  seesPunct "|" trees || seesOneOf ["move", "static"] trees
    || (seesWord "for" trees && seesPunct "<" next
      && (seesLifetime third || seesPunct ">" third))
    || (seesWord "const" trees && !seesGroup .brace next)
    || (seesWord "async" trees
      && (seesPunct "|" next
        || (seesWord "move" next && seesPunct "|" third)))

/- Whether a block that runs later starts here. -/
def startsAsync
    (trees : List TokenTree) : Bool :=
  let next := trees.drop 1
  seesWord "async" trees
    && (seesGroup .brace next
      || (seesWord "move" next && seesGroup .brace (trees.drop 2)))

/- Whether a part of a value is taken here. -/
def startsTrailer
    (trees : List TokenTree) : Bool :=
  (seesPunct "." trees && !seesPunct ".." trees)
    || seesPunct "?" trees

/- Read statements in braces. -/
def block
    (g : Grammar) : Parser Unit :=
  within .brace g.statements

------------------------------------------------------------
-- Expressions with Braces
------------------------------------------------------------

/-
  Read the parts of a choice after its first word, with so
  many branches at most.
-/
def ifRest
    (g : Grammar) : Nat → Parser Unit
  | 0 =>
      Parser.fail "nested too deep"
  | count + 1 => do
      g.expr false
      block g
      if ← word? "else" then
        if ← word? "if" then
          ifRest g count
        else
          block g

/- Read a case of a choice by pattern. -/
def matchArm
    (g : Grammar) : Parser Unit := do
  let _ ← outerAttributes g
  patternChoice g
  if ← word? "if" then
    g.expr true
  punct "=>"
  let ended ← g.boundary
  if ended then
    let _ ← punct? ","
  else if !(← atEnd) then
    punct ","

/- Read the cases of a choice by pattern. -/
def matchArms
    (g : Grammar) : Parser Unit := do
  let _ ← innerAttributes g
  let _ ← manyWhile (fun ts => !ts.isEmpty) (matchArm g)

/- Whether an expression that ends with braces starts here. -/
def startsBraced
    (trees : List TokenTree) : Bool :=
  let next := trees.drop 1
  let third := trees.drop 2
  seesOneOf ["if", "while", "loop", "match"] trees
    || (seesWord "for" trees
      && !(seesPunct "<" next
        && (seesLifetime third || seesPunct ">" third)))
    || (seesOneOf ["try", "unsafe", "const"] trees
      && seesGroup .brace next)
    || seesGroup .brace trees || seesLifetime trees

/- Read a loop or a block. -/
def loopOrBlock
    (g : Grammar) : Parser Unit := do
  if ← word? "while" then
    g.expr false
    block g
  else if ← word? "loop" then
    block g
  else if ← word? "for" then
    patternChoice g
    word "in"
    g.expr false
    block g
  else
    block g

/- Read an expression that ends with braces. -/
def braced
    (g : Grammar) : Parser Unit := do
  if ← word? "if" then
    fun trees => ifRest g (trees.length + 1) trees
  else if ← word? "match" then
    g.expr false
    within .brace (matchArms g)
  else if ← sees (seesOneOf ["try", "unsafe", "const"]) then
    skip 1
    block g
  else if ← sees seesLifetime then
    lifetime
    punct ":"
    loopOrBlock g
  else
    loopOrBlock g

------------------------------------------------------------
-- Atoms
------------------------------------------------------------

/- Read the name or the number of a field, and which it is. -/
def fieldName : Parser Bool :=
  fun trees =>
    match trees with
    | .ident name :: rest =>
        if reserved.contains name.text then
          .error ⟨"expected identifier or integer", false⟩
        else
          .ok (true, rest)
    | .literal .int :: rest =>
        .ok (false, rest)
    | _ =>
        .error ⟨"expected identifier or integer", trees.isEmpty⟩

/- Read a field of a structure in braces. -/
def fieldValue
    (g : Grammar) : Parser Unit := do
  if ← punct? ".." then
    if !(← atEnd) then
      g.expr true
      if !(← atEnd) then
        Parser.fail "unexpected token"
  else
    let _ ← outerAttributes g
    let named ← fieldName
    let colon ← sees fun ts =>
      seesPunct ":" ts && !seesPunct "::" ts
    if colon || !named then
      punct ":"
      g.expr true

/- Read a path, a macro, or a structure in braces. -/
def pathExpr
    (g : Grammar)
    (braces : Bool) : Parser Unit := do
  let (qualified, segments) ← qualifiedPath g true
  let bare := segments.all fun segment => segment.arguments.isNone
  if !qualified && bare && (← sees fun ts =>
      seesPunct "!" ts && !seesPunct "!=" ts) then
    punct "!"
    let _ ← anyGroup
  else if braces && (← sees (seesGroup .brace)) then
    let _ ← within .brace (commaList (fieldValue g))

/- Read a parameter of a closure. -/
def closureParam
    (g : Grammar) : Parser Unit := do
  let _ ← outerAttributes g
  g.pattern
  if ← punct? ":" then
    let _ ← g.type true

/- Read a closure. -/
def closure
    (g : Grammar)
    (braces : Bool) : Parser Unit := do
  let _ ← boundLifetimes
  let _ ← word? "const"
  let _ ← word? "static"
  let _ ← word? "async"
  let _ ← word? "move"
  punct "|"
  let _ ← commasUntil (seesPunct "|") (closureParam g)
  punct "|"
  if ← punct? "->" then
    let _ ← g.type true
    block g
  else
    g.expr braces

/- Read the elements of an array. -/
def arrayElements
    (g : Grammar) : Parser Unit := do
  if !(← atEnd) then
    g.expr true
    if ← punct? ";" then
      g.expr true
    else if !(← atEnd) then
      punct ","
      let _ ← commaList (g.expr true)

/- Read a value after a word that may have one. -/
def optionalValue
    (g : Grammar)
    (braces : Bool) : Parser Unit := do
  if ← sees fun ts =>
      startsExpr ts && (braces || !seesGroup .brace ts) then
    g.expr braces

/- Whether a path starts here in an expression. -/
def startsPathExpr
    (trees : List TokenTree) : Bool :=
  startsPath trees
    || (seesWord "try" trees
      && (seesPunct "!" (trees.drop 1)
        || seesPunct "::" (trees.drop 1)))

/- Whether a range ends here without an end of its own. -/
def endsRange
    (braces : Bool)
    (trees : List TokenTree) : Bool :=
  trees.isEmpty || seesPunct "," trees || seesPunct ";" trees
    || startsTrailer trees || seesPunct "=>" trees
    || (!braces && seesGroup .brace trees)
    || seesPunct "=" trees || seesPunct "+" trees
    || seesPunct "/" trees || seesPunct "%" trees
    || seesPunct "^" trees || seesPunct ">" trees
    || seesPunct "<=" trees || seesPunct "!=" trees
    || seesPunct "-=" trees || seesPunct "*=" trees
    || seesPunct "&=" trees || seesPunct "|=" trees
    || seesPunct "<<=" trees || seesWord "as" trees

/- Read the end of a range, if it has one. -/
def rangeEnd
    (g : Grammar)
    (braces closed : Bool) : Parser Bool := do
  if !closed && (← sees (endsRange braces)) then
    pure false
  else
    g.unary braces
    pure true

/- Read an expression without operators and trailers. -/
def atom
    (g : Grammar)
    (braces : Bool) : Parser Unit := do
  if ← sees seesLiteral then
    literal
  else if ← sees startsAsync then
    word "async"
    let _ ← word? "move"
    block g
  else if ← sees startsBraced then
    braced g
  else if ← sees startsClosure then
    closure g braces
  else if ← sees startsPathExpr then
    pathExpr g braces
  else if ← sees (seesGroup .parenthesis) then
    let _ ← within .parenthesis (commaList (g.expr true))
  else if ← sees (seesGroup .bracket) then
    within .bracket (arrayElements g)
  else if ← word? "break" then
    if ← sees fun ts =>
        seesLifetime ts && !seesPunct ":" (ts.drop 1) then
      lifetime
    optionalValue g braces
  else if ← word? "continue" then
    if ← sees seesLifetime then
      lifetime
  else if ← sees (seesOneOf ["return", "yield"]) then
    skip 1
    optionalValue g braces
  else if ← word? "become" then
    g.expr braces
  else if ← word? "let" then
    patternChoice g
    punct "="
    g.expr false
  else if ← word? "_" then
    pure ()
  else
    failHere "expected an expression"

------------------------------------------------------------
-- Operands
------------------------------------------------------------

/- Read what takes a part of a value, if it comes next. -/
def trailer
    (g : Grammar) : Parser (Option Unit) := do
  if ← sees (seesGroup .parenthesis) then
    let _ ← within .parenthesis (commaList (g.expr true))
    pure (some ())
  else if ← sees (seesGroup .bracket) then
    within .bracket (g.expr true)
    pure (some ())
  else if ← punct? "?" then
    pure (some ())
  else if ← sees fun ts =>
      seesPunct "." ts && !seesPunct ".." ts then
    punct "."
    if ← word? "await" then
      return some ()
    if ← sees fun ts =>
        match ts with
        | .literal .float :: _ => true
        | _ => false then
      skip 1
      return some ()
    let named ← fieldName
    if named && (← sees (seesPunct "::")) then
      punct "::"
      let _ ← genericArgs g
      let _ ← within .parenthesis (commaList (g.expr true))
    pure (some ())
  else
    pure none

/- Read everything that takes a part of a value. -/
def trailers
    (g : Grammar) : Parser Unit := do
  let _ ← many (trailer g)

/- Read an operand. -/
def unaryRule
    (g : Grammar)
    (braces : Bool) : Parser Unit := do
  let _ ← outerAttributes g
  if ← punct? "&" then
    if ← sees fun ts =>
        seesWord "raw" ts
          && seesOneOf ["const", "mut"] (ts.drop 1) then
      skip 2
    else
      let _ ← word? "mut"
    g.unary braces
  else if ← sees fun ts =>
      seesPunct "*" ts || seesPunct "!" ts
        || (seesPunct "-" ts && !seesLiteral ts) then
    skip 1
    g.unary braces
  else if ← sees (seesPunct "..") then
    let closed ← rangeMarks
    let _ ← rangeEnd g braces closed
  else
    atom g braces
    trailers g

------------------------------------------------------------
-- Operators
------------------------------------------------------------

/- What an operator does to the ones that may follow it. -/
inductive OperatorKind where
  | arithmetic
  | comparison
  | logical
  | assignment
  deriving DecidableEq

/- The operators, a longer one before its beginning. -/
def operators : List (String × OperatorKind) :=
  [("<<=", .assignment), (">>=", .assignment),
   ("+=", .assignment), ("-=", .assignment),
   ("*=", .assignment), ("/=", .assignment),
   ("%=", .assignment), ("^=", .assignment),
   ("&=", .assignment), ("|=", .assignment),
   ("&&", .logical), ("||", .logical),
   ("<<", .arithmetic), (">>", .arithmetic),
   ("==", .comparison), ("<=", .comparison),
   ("!=", .comparison), (">=", .comparison),
   ("+", .arithmetic), ("-", .arithmetic), ("*", .arithmetic),
   ("/", .arithmetic), ("%", .arithmetic), ("^", .arithmetic),
   ("&", .arithmetic), ("|", .arithmetic),
   ("<", .comparison), (">", .comparison)]

/- The operator that comes next, and what it is. -/
def operator?
    (trees : List TokenTree) : Option (String × OperatorKind) :=
  operators.find? fun (marks, _) => seesPunct marks trees

/- Read the type of a cast, after which no part is taken. -/
def castType
    (g : Grammar) : Parser Unit := do
  let _ ← g.type false
  if ← sees fun ts =>
      startsTrailer ts || seesGroup .parenthesis ts
        || seesGroup .bracket ts then
    Parser.fail "casts cannot be followed by a part"

/-
  Read the operators and operands after an operand.  A
  comparison does not follow a comparison, and a range stands
  under no range and under no assignment.
-/
def operations
    (g : Grammar)
    (braces : Bool) :
    (compared ranged : Bool) → Nat → Parser Unit
  | _, _, 0 =>
      pure ()
  | compared, ranged, count + 1 => do
      let next ← fun trees => .ok (operator? trees, trees)
      match next with
      | some (marks, kind) =>
          if ranged && kind = .assignment then
            pure ()
          else if compared && kind = .comparison then
            Parser.fail "comparison operators cannot be chained"
          else
            punct marks
            g.unary braces
            let compared :=
              kind = .comparison
                || (compared && kind = .arithmetic)
            operations g braces compared ranged count
      | none =>
          if ← sees (seesWord "as") then
            word "as"
            castType g
            operations g braces compared ranged count
          else if ranged then
            pure ()
          else if ← sees fun ts =>
              seesPunct "=" ts && !seesPunct "=>" ts then
            punct "="
            g.unary braces
            operations g braces false false count
          else if ← sees (seesPunct "..") then
            let closed ← rangeMarks
            if ← rangeEnd g braces closed then
              operations g braces false true count
          else
            pure ()

/- Read the operators and operands after an operand. -/
def operationsAfter
    (g : Grammar)
    (braces : Bool) : Parser Unit :=
  fun trees =>
    operations g braces false false (trees.length + 1) trees

/- Read an expression. -/
def exprRule
    (g : Grammar)
    (braces : Bool) : Parser Unit := do
  unaryRule g braces
  operationsAfter g braces

/-
  Read an expression where a statement may stand: one that
  ends with braces ends there, unless a part of it is taken.
-/
def boundaryRule
    (g : Grammar) : Parser Bool := do
  let _ ← outerAttributes g
  if ← sees startsBraced then
    braced g
    if ← sees startsTrailer then
      trailers g
      operationsAfter g true
      pure false
    else
      pure true
  else
    exprRule g true
    pure false

end Declaration

end TreeWire
