import TreeWire.Declaration.Literal
import TreeWire.Text.Blank

/-
  From the text of a declaration source to token trees.

  Blanks and comments are dropped.  A documentation comment
  becomes an attribute.  Brackets are matched at the end.

  Key definitions include:
    * `blockComment?`
    * `docComment?`
    * `Lexeme`
    * `lexemes?`
    * `matchBrackets?`
    * `tokenTrees?`
-/

namespace TreeWire

namespace Declaration

------------------------------------------------------------
-- Comments
------------------------------------------------------------

/- Whether a character separates tokens. -/
def isSeparator
    (c : Char) : Bool :=
  isBlank c || c = '\u200e' || c = '\u200f'

/- Split off the characters before a line end. -/
def lineComment : List Char → List Char × List Char
  | [] =>
      ([], [])
  | '\n' :: cs =>
      ([], '\n' :: cs)
  | '\r' :: '\n' :: cs =>
      ([], '\n' :: cs)
  | c :: cs =>
      let (line, rest) := lineComment cs
      (c :: line, rest)

/-
  Split off a block comment, in which comments nest, at its
  opening mark.  The result has the marks in it.
-/
def blockComment?
    (depth : Nat)
    (read : List Char) :
    List Char → Option (List Char × List Char)
  | '/' :: '*' :: cs =>
      blockComment? (depth + 1) ('*' :: '/' :: read) cs
  | '*' :: '/' :: cs =>
      if depth ≤ 1 then
        some (('/' :: '*' :: read).reverse, cs)
      else
        blockComment? (depth - 1) ('/' :: '*' :: read) cs
  | c :: cs =>
      blockComment? depth (c :: read) cs
  | [] =>
      none

/- Whether a carriage return stands without a line feed. -/
def hasBareReturn : List Char → Bool
  | '\r' :: '\n' :: cs => hasBareReturn cs
  | '\r' :: _ => true
  | _ :: cs => hasBareReturn cs
  | [] => false

/- Whether a text starts with characters. -/
def startsWith
    (text : String)
    (cs : List Char) : Bool :=
  text.toList.isPrefixOf cs

/- Whether a line comment that documents nothing starts here. -/
def startsLineComment
    (cs : List Char) : Bool :=
  startsWith "//" cs
    && (!startsWith "///" cs || startsWith "////" cs)
    && !startsWith "//!" cs

/- Whether a block comment that documents nothing starts here. -/
def startsBlockComment
    (cs : List Char) : Bool :=
  startsWith "/**/" cs
    || (startsWith "/*" cs
      && (!startsWith "/**" cs || startsWith "/***" cs)
      && !startsWith "/*!" cs)

/- A documentation comment, and whether it is an inner one. -/
structure DocComment where
  inner : Bool
  text : List Char

/- Read a documentation comment. -/
def docComment?
    (cs : List Char) : Option (DocComment × List Char) :=
  let line (inner : Bool) :=
    let (text, rest) := lineComment (cs.drop 3)
    some (DocComment.mk inner text, rest)
  let block (inner : Bool) := do
    let (text, rest) ← blockComment? 0 [] cs
    some (DocComment.mk inner (text.drop 3).dropLast.dropLast, rest)
  let comment? :=
    if startsWith "//!" cs then line true
    else if startsWith "/*!" cs then block true
    else if startsWith "////" cs then none
    else if startsWith "///" cs then line false
    else if startsWith "/***" cs then none
    else if startsWith "/**" cs then block false
    else none
  comment?.filter fun (comment, _) => !hasBareReturn comment.text

namespace DocComment

/- The word for documentation. -/
def docWord : Identifier :=
  ⟨"doc", false, rfl⟩

/- A documentation comment as an attribute. -/
def trees
    (comment : DocComment) : List TokenTree :=
  [.punct '#' false]
    ++ (if comment.inner then [.punct '!' false] else [])
    ++ [.group .bracket
      [.ident docWord, .punct '=' false,
        .literal (.string (String.ofList comment.text))]]

end DocComment

------------------------------------------------------------
-- Leaves
------------------------------------------------------------

/- Read a mark; a slash that opens a comment is none. -/
def mark?
    (cs : List Char) : Option (Char × List Char) :=
  match cs with
  | [] =>
      none
  | c :: rest =>
      if startsWith "//" cs || startsWith "/*" cs then none
      else if "~!@#$%^&*-=+|;:,<.>/?'".toList.contains c then
        some (c, rest)
      else
        none

/- The words that cannot be raw. -/
def neverRaw : List String :=
  ["_", "super", "self", "Self", "crate"]

/- Read an identifier.  A raw one starts with a mark. -/
def anyIdent?
    (cs : List Char) : Option (Identifier × List Char) :=
  if startsWith "r#" cs then
    (identWord? true (cs.drop 2)).filter fun (name, _) =>
      !neverRaw.contains name.word
  else
    identWord? false cs

/- Read an identifier that is not the start of a literal. -/
def ident?
    (cs : List Char) : Option (Identifier × List Char) :=
  if ["r\"", "r#\"", "r##", "b\"", "b'", "br\"", "br#",
      "c\"", "cr\"", "cr#"].any fun text => startsWith text cs then
    none
  else
    anyIdent? cs

/- Read a mark or a lifetime. -/
def markOrLifetime?
    (cs : List Char) : Option (TokenTree × List Char) := do
  let (c, rest) ← mark? cs
  if c = '\x27' then
    let (name, after) ← anyIdent? rest
    if after.head? = some '\x27'
        || (after.head? = some '#' && !startsWith "r#" rest) then
      none
    else
      some (.lifetime name.text, after)
  else
    some (.punct c (mark? rest).isSome, rest)

/- The text that stands for an expansion that failed. -/
def brokenText : String :=
  "(/*ERROR*/)"

/- Read a token that is not a bracket. -/
def leaf?
    (cs : List Char) : Option (TokenTree × List Char) :=
  (literal? cs).map (fun (lit, rest) => (.literal lit, rest))
    <|> markOrLifetime? cs
    <|> (ident? cs).map (fun (name, rest) => (.ident name, rest))
    <|> (after? brokenText cs).map
      (fun rest => (.literal .broken, rest))

------------------------------------------------------------
-- Lexemes
------------------------------------------------------------

/- A token, or a bracket that is not yet matched. -/
inductive Lexeme where
  | leaf (tree : TokenTree)
  | opening (delimiter : Delimiter)
  | closing (delimiter : Delimiter)

/- A bracket that starts here. -/
def bracket?
    (cs : List Char) : Option Lexeme :=
  match cs with
  | '(' :: _ =>
      if startsWith brokenText cs then none
      else some (.opening .parenthesis)
  | '[' :: _ => some (.opening .bracket)
  | '\x7b' :: _ => some (.opening .brace)
  | ')' :: _ => some (.closing .parenthesis)
  | ']' :: _ => some (.closing .bracket)
  | '\x7d' :: _ => some (.closing .brace)
  | _ => none

/- Read what stands next: lexemes, or none for a blank. -/
def nextLexemes?
    (c : Char)
    (cs : List Char) : Option (List Lexeme × List Char) :=
  let all := c :: cs
  if startsLineComment all then
    some ([], (lineComment cs).2)
  else if startsBlockComment all then
    (blockComment? 0 [] all).map fun (_, rest) => ([], rest)
  else if isSeparator c then
    some ([], cs)
  else
    match docComment? all with
    | some (comment, rest) =>
        some (comment.trees.map .leaf, rest)
    | none =>
        match bracket? all with
        | some lexeme =>
            some ([lexeme], cs)
        | none =>
            (leaf? all).map fun (tree, rest) =>
              ([.leaf tree], rest)

/-
  The lexemes of a text, the last one first.  The number of
  steps is bounded by that of the characters.
-/
def lexemes? :
    (steps : Nat) →
    (read : List Lexeme) →
    List Char →
    Option (List Lexeme)
  | _, read, [] =>
      some read
  | 0, _, _ =>
      none
  | steps + 1, read, c :: cs => do
      let (lexemes, rest) ← nextLexemes? c cs
      lexemes? steps (lexemes.reverse ++ read) rest

------------------------------------------------------------
-- Trees
------------------------------------------------------------

/-
  Match the brackets of lexemes, given the brackets that are
  open, innermost first, each with what stands before it in
  the same group, the last tree first.
-/
def matchBrackets? :
    (frames : List (Delimiter × List TokenTree)) →
    (read : List TokenTree) →
    List Lexeme →
    Option (List TokenTree)
  | [], read, [] =>
      some read.reverse
  | _ :: _, _, [] =>
      none
  | frames, read, .leaf tree :: lexemes =>
      matchBrackets? frames (tree :: read) lexemes
  | frames, read, .opening delimiter :: lexemes =>
      matchBrackets? ((delimiter, read) :: frames) [] lexemes
  | [], _, .closing _ :: _ =>
      none
  | (opened, outer) :: frames, read, .closing closed :: lexemes =>
      if opened = closed then
        matchBrackets? frames (.group opened read.reverse :: outer)
          lexemes
      else
        none

/- Drop a byte order mark. -/
def dropByteOrderMark : List Char → List Char
  | '\ufeff' :: cs => cs
  | cs => cs

/- The token trees of a text. -/
def tokenTrees?
    (cs : List Char) : Option (List TokenTree) := do
  let cs := dropByteOrderMark cs
  let lexemes ← lexemes? cs.length [] cs
  matchBrackets? [] [] lexemes.reverse

end Declaration

end TreeWire
