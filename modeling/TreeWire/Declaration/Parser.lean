import TreeWire.Declaration.TokenTree

/-
  Parsers of token trees.

  A parser takes trees from the front of a list.  A parser of
  a group reads the trees of the group to their end.

  Key definitions include:
    * `SyntaxError`
    * `Parser`
    * `Parser.punct`
    * `Parser.word`
    * `Parser.ident`
    * `Parser.within`
    * `Parser.commaList`
-/

namespace TreeWire

namespace Declaration

------------------------------------------------------------
-- Errors
------------------------------------------------------------

/- What was expected, and whether the input had ended. -/
structure SyntaxError where
  message : String
  atEnd : Bool
  deriving DecidableEq, Repr, Inhabited

namespace SyntaxError

/- A syntax error in words. -/
def text
    (e : SyntaxError) : String :=
  if e.atEnd then "unexpected end of input, " ++ e.message
  else e.message

end SyntaxError

------------------------------------------------------------
-- Looking Ahead
------------------------------------------------------------

namespace TokenTree

/- Words that are not identifiers. -/
def reserved : List String :=
  ["_", "abstract", "as", "async", "await", "become", "box",
   "break", "const", "continue", "crate", "do", "dyn", "else",
   "enum", "extern", "false", "final", "fn", "for", "if", "impl",
   "in", "let", "loop", "macro", "match", "mod", "move", "mut",
   "override", "priv", "pub", "ref", "return", "Self", "self",
   "static", "struct", "super", "trait", "true", "try", "type",
   "typeof", "unsafe", "unsized", "use", "virtual", "where",
   "while", "yield"]

/- The trees after marks that stand without a gap. -/
def afterMarks? :
    List Char → List TokenTree → Option (List TokenTree)
  | [], trees =>
      some trees
  | [c], .punct mark _ :: trees =>
      if mark = c then some trees else none
  | c :: cs, .punct mark joint :: trees =>
      if mark = c && joint then afterMarks? cs trees else none
  | _, _ =>
      none

/- Whether marks come next. -/
def seesPunct
    (marks : String)
    (trees : List TokenTree) : Bool :=
  (afterMarks? marks.toList trees).isSome

/- Whether a certain word comes next. -/
def seesWord
    (word : String) : List TokenTree → Bool
  | .ident name :: _ => name.text = word
  | _ => false

/- Whether one of some words comes next. -/
def seesOneOf
    (words : List String) : List TokenTree → Bool
  | .ident name :: _ => words.contains name.text
  | _ => false

/- Whether any word comes next. -/
def seesAnyWord : List TokenTree → Bool
  | .ident _ :: _ => true
  | _ => false

/- Whether an identifier comes next. -/
def seesIdent : List TokenTree → Bool
  | .ident name :: _ => !reserved.contains name.text
  | _ => false

/- Whether a lifetime comes next. -/
def seesLifetime : List TokenTree → Bool
  | .lifetime _ :: _ => true
  | _ => false

/- Whether a group comes next. -/
def seesGroup
    (delimiter : Delimiter) : List TokenTree → Bool
  | .group d _ :: _ => d = delimiter
  | _ => false

/- The trees after a literal, which may be negative. -/
def afterLiteral? : List TokenTree → Option (List TokenTree)
  | .literal _ :: trees => some trees
  | .ident name :: trees =>
      if ["true", "false"].contains name.text then some trees
      else none
  | .punct '-' _ :: .literal .int :: trees => some trees
  | .punct '-' _ :: .literal .float :: trees => some trees
  | _ => none

/- Whether a literal comes next. -/
def seesLiteral
    (trees : List TokenTree) : Bool :=
  (afterLiteral? trees).isSome

/- Whether a string comes next. -/
def seesString : List TokenTree → Bool
  | .literal (.string _) :: _ => true
  | _ => false

end TokenTree

------------------------------------------------------------
-- Parsers
------------------------------------------------------------

/- A parser of token trees. -/
abbrev Parser :=
  StateT (List TokenTree) (Except SyntaxError)

namespace Parser

variable {α : Type}

/- Fail with a message. -/
def fail
    (message : String) : Parser α :=
  fun _ => .error ⟨message, false⟩

/- Fail with a message that says if the input has ended. -/
def failHere
    (message : String) : Parser α :=
  fun trees => .error ⟨message, trees.isEmpty⟩

/- Whether the next trees satisfy a condition. -/
def sees
    (test : List TokenTree → Bool) : Parser Bool :=
  fun trees => .ok (test trees, trees)

/- Whether no tree is left. -/
def atEnd : Parser Bool :=
  sees List.isEmpty

/- Go on with the trees that a reader leaves, or fail. -/
def advance
    (after? : List TokenTree → Option (List TokenTree))
    (message : String) : Parser Unit :=
  fun trees =>
    match after? trees with
    | some rest => .ok ((), rest)
    | none => .error ⟨message, trees.isEmpty⟩

/- Drop a number of trees. -/
def skip
    (count : Nat) : Parser Unit :=
  fun trees => .ok ((), trees.drop count)

/- Run a parser, or go on as if it had not been run. -/
def attempt
    (p : Parser α) : Parser (Option α) :=
  fun trees =>
    match p trees with
    | .ok (a, rest) => .ok (some a, rest)
    | .error _ => .ok (none, trees)

------------------------------------------------------------
-- Tokens
------------------------------------------------------------

/- Read marks that stand without a gap. -/
def punct
    (marks : String) : Parser Unit :=
  fun trees =>
    match TokenTree.afterMarks? marks.toList trees with
    | some rest => .ok ((), rest)
    | none => .error ⟨"expected `" ++ marks ++ "`", false⟩

/- Read marks if they come next. -/
def punct?
    (marks : String) : Parser Bool :=
  fun trees =>
    match TokenTree.afterMarks? marks.toList trees with
    | some rest => .ok (true, rest)
    | none => .ok (false, trees)

/- Read a certain word. -/
def word
    (text : String) : Parser Unit := do
  if ← sees (TokenTree.seesWord text) then
    skip 1
  else
    failHere ("expected `" ++ text ++ "`")

/- Read a certain word if it comes next. -/
def word?
    (text : String) : Parser Bool := do
  if ← sees (TokenTree.seesWord text) then
    skip 1
    pure true
  else
    pure false

/- Read any word. -/
def anyWord : Parser Identifier :=
  fun trees =>
    match trees with
    | .ident name :: rest => .ok (name, rest)
    | _ => .error ⟨"expected ident", trees.isEmpty⟩

/- Read an identifier. -/
def ident : Parser Identifier :=
  fun trees =>
    match trees with
    | .ident name :: rest =>
        if TokenTree.reserved.contains name.text then
          .error
            ⟨"expected identifier, found keyword `"
                ++ name.text ++ "`",
              false⟩
        else
          .ok (name, rest)
    | _ =>
        .error ⟨"expected identifier", trees.isEmpty⟩

/- Read a lifetime. -/
def lifetime : Parser Unit := do
  if ← sees TokenTree.seesLifetime then
    skip 1
  else
    failHere "expected lifetime"

/- Read a literal. -/
def literal : Parser Unit :=
  advance TokenTree.afterLiteral? "expected literal"

/- Read a string. -/
def string : Parser String :=
  fun trees =>
    match trees with
    | .literal (.string value) :: rest => .ok (value, rest)
    | _ => .error ⟨"expected string literal", trees.isEmpty⟩

------------------------------------------------------------
-- Groups
------------------------------------------------------------

/- The name of a pair of brackets. -/
def delimiterText : Delimiter → String
  | .parenthesis => "parentheses"
  | .bracket => "square brackets"
  | .brace => "curly braces"

/- Read a group. -/
def group
    (delimiter : Delimiter) : Parser (List TokenTree) :=
  fun trees =>
    match trees with
    | .group d inner :: rest =>
        if d = delimiter then .ok (inner, rest)
        else .error ⟨"expected " ++ delimiterText delimiter, false⟩
    | _ =>
        .error
          ⟨"expected " ++ delimiterText delimiter, trees.isEmpty⟩

/- Read any group. -/
def anyGroup : Parser (Delimiter × List TokenTree) :=
  fun trees =>
    match trees with
    | .group d inner :: rest => .ok ((d, inner), rest)
    | _ => .error ⟨"expected delimiter", trees.isEmpty⟩

/- Run a parser on trees, all of which it has to read. -/
def inside
    (inner : List TokenTree)
    (p : Parser α) : Parser α :=
  fun trees =>
    match p inner with
    | .ok (a, []) => .ok (a, trees)
    | .ok (_, _ :: _) => .error ⟨"unexpected token", false⟩
    | .error e => .error e

/- Run a parser on the trees of a group. -/
def within
    (delimiter : Delimiter)
    (p : Parser α) : Parser α := do
  inside (← group delimiter) p

/- Take all trees that are left. -/
def rest : Parser (List TokenTree) :=
  fun trees => .ok (trees, [])

------------------------------------------------------------
-- Repetition
------------------------------------------------------------

/- Run a parser until it gives nothing, at most so often. -/
def repeatWithin
    (p : Parser (Option α)) : Nat → Parser (List α)
  | 0 =>
      pure []
  | count + 1 => do
      match ← p with
      | none => pure []
      | some a => return a :: (← repeatWithin p count)

/-
  Run a parser until it gives nothing.  A parser that gives
  something has read a tree, so the trees bound the number of
  runs.
-/
def many
    (p : Parser (Option α)) : Parser (List α) :=
  fun trees => repeatWithin p (trees.length + 1) trees

/- Run a parser as long as a condition holds. -/
def manyWhile
    (test : List TokenTree → Bool)
    (p : Parser α) : Parser (List α) :=
  many do
    if ← sees test then
      return some (← p)
    else
      pure none

/-
  Parts with a mark between two of them and perhaps after the
  last, up to where a condition holds.
-/
def separatedWithin
    (marks : String)
    (stop : List TokenTree → Bool)
    (p : Parser α) : Nat → Parser (List α)
  | 0 =>
      pure []
  | count + 1 => do
      if ← sees stop then
        pure []
      else
        let first ← p
        if ← sees stop then
          pure [first]
        else
          punct marks
          return first :: (← separatedWithin marks stop p count)

/- Parts with commas between them, up to a condition. -/
def commasUntil
    (stop : List TokenTree → Bool)
    (p : Parser α) : Parser (List α) :=
  fun trees =>
    separatedWithin "," stop p (trees.length + 1) trees

/- Parts with commas between them, up to the end. -/
def commaList
    (p : Parser α) : Parser (List α) :=
  commasUntil List.isEmpty p

end Parser

end Declaration

end TreeWire
