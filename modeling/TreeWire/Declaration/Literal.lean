import TreeWire.Declaration.Identifier
import TreeWire.Declaration.TokenTree
import TreeWire.Number.IntText

/-
  Literals of a declaration source: strings in their several
  forms, characters, and numbers.

  Each reader takes the characters that are left and returns
  what it has read and the characters after it.

  Key definitions include:
    * `EscapeRules`
    * `escape?`
    * `quotedBody?`
    * `rawBody?`
    * `literal?`
-/

namespace TreeWire

namespace Declaration

------------------------------------------------------------
-- Words
------------------------------------------------------------

/- The characters after a suffix, if there is one. -/
def afterSuffix
    (cs : List Char) : List Char :=
  match identChars? cs with
  | some (_, rest) => rest
  | none => cs

/- The characters after a fixed text. -/
def after?
    (text : String)
    (cs : List Char) : Option (List Char) :=
  if text.toList.isPrefixOf cs then
    some (cs.drop text.length)
  else
    none

------------------------------------------------------------
-- Escapes
------------------------------------------------------------

/-
  The escapes of a kind of literal: the greatest value of a
  hexadecimal escape, whether code points can be written, and
  whether a null character can stand in it.
-/
structure EscapeRules where
  hexLimit : Nat
  unicode : Bool
  null : Bool
  asciiOnly : Bool

namespace EscapeRules

/- Escapes in text. -/
def text : EscapeRules :=
  ⟨0x7f, true, true, false⟩

/- Escapes in bytes. -/
def bytes : EscapeRules :=
  ⟨0xff, false, true, true⟩

/- Escapes in text that a null character ends. -/
def cText : EscapeRules :=
  ⟨0xff, true, false, false⟩

end EscapeRules

/- The value of a hexadecimal digit. -/
def hexDigit?
    (c : Char) : Option Nat :=
  if '0' ≤ c && c ≤ '9' then some (c.toNat - 48)
  else if 'a' ≤ c && c ≤ 'f' then some (c.toNat - 87)
  else if 'A' ≤ c && c ≤ 'F' then some (c.toNat - 55)
  else none

/- The character with a code point. -/
def charOf?
    (n : Nat) : Option Char :=
  if h : n.isValidChar then
    some (Char.ofNatAux n h)
  else
    none

/-
  Read up to six hexadecimal digits and the brace after them.
  Underscores may follow the first digit.
-/
def codePoint?
    (value count : Nat) : List Char → Option (Nat × List Char)
  | [] =>
      none
  | c :: cs =>
      match hexDigit? c with
      | some digit =>
          if count = 6 then none
          else codePoint? (value * 16 + digit) (count + 1) cs
      | none =>
          if count = 0 then none
          else if c = '_' then codePoint? value count cs
          else if c = '\x7d' then some (value, cs)
          else none

/- A null character, where one can stand. -/
def EscapeRules.check?
    (rules : EscapeRules)
    (c : Char)
    (rest : List Char) : Option (Char × List Char) :=
  if c = '\x00' && !rules.null then none else some (c, rest)

/- Read what follows a backslash, other than a line end. -/
def escape?
    (rules : EscapeRules) :
    List Char → Option (Char × List Char)
  | 'n' :: cs => some ('\n', cs)
  | 'r' :: cs => some ('\r', cs)
  | 't' :: cs => some ('\t', cs)
  | '\\' :: cs => some ('\\', cs)
  | '\x27' :: cs => some ('\x27', cs)
  | '"' :: cs => some ('"', cs)
  | '0' :: cs => rules.check? '\x00' cs
  | 'x' :: a :: b :: cs => do
      let n := (← hexDigit? a) * 16 + (← hexDigit? b)
      if n ≤ rules.hexLimit then
        rules.check? (Char.ofNat n) cs
      else
        none
  | 'u' :: '\x7b' :: cs => do
      let (n, rest) ← codePoint? 0 0 cs
      if rules.unicode then
        rules.check? (← charOf? n) rest
      else
        none
  | _ => none

------------------------------------------------------------
-- Strings
------------------------------------------------------------

/-
  Drop the blanks that continue a line.  A carriage return has
  to stand before a line feed.
-/
def dropLineBlanks? : List Char → Option (List Char)
  | [] => none
  | '\r' :: '\n' :: cs => dropLineBlanks? cs
  | '\r' :: _ => none
  | c :: cs =>
      if c = ' ' || c = '\t' || c = '\n' then
        dropLineBlanks? cs
      else
        some (c :: cs)

/-
  Read the body of a string to its closing quote.  A line end
  is a line feed; after a backslash it is dropped with the
  blanks that follow.  The number of steps is bounded by that
  of the characters.
-/
def quotedBody?
    (rules : EscapeRules) :
    (steps : Nat) →
    (read : List Char) →
    List Char →
    Option (List Char × List Char)
  | 0, _, _ =>
      none
  | steps + 1, read, cs =>
      match cs with
      | [] =>
          none
      | '"' :: rest =>
          some (read.reverse, rest)
      | '\r' :: '\n' :: rest =>
          quotedBody? rules steps ('\n' :: read) rest
      | '\r' :: _ =>
          none
      | '\\' :: '\n' :: rest =>
          (dropLineBlanks? rest).bind
            (quotedBody? rules steps read)
      | '\\' :: '\r' :: '\n' :: rest =>
          (dropLineBlanks? rest).bind
            (quotedBody? rules steps read)
      | '\\' :: rest =>
          (escape? rules rest).bind fun (c, rest) =>
            quotedBody? rules steps (c :: read) rest
      | c :: rest =>
          if (c = '\x00' && !rules.null)
              || (rules.asciiOnly && 0x7f < c.toNat) then
            none
          else
            quotedBody? rules steps (c :: read) rest

/- Read a string after its opening quote. -/
def quoted?
    (rules : EscapeRules)
    (cs : List Char) : Option (String × List Char) := do
  let (body, rest) ← quotedBody? rules (cs.length + 1) [] cs
  some (String.ofList body, afterSuffix rest)

/-
  Read the body of a raw string, which ends at a quote with so
  many number signs after it.
-/
def rawBody?
    (rules : EscapeRules)
    (signs : Nat)
    (read : List Char) :
    List Char → Option (List Char × List Char)
  | [] =>
      none
  | c :: cs =>
      if c = '"' && (List.replicate signs '#').isPrefixOf cs then
        some (read.reverse, cs.drop signs)
      else if (c = '\r' && cs.head? != some '\n')
          || (c = '\x00' && !rules.null)
          || (rules.asciiOnly && 0x7f < c.toNat) then
        none
      else
        rawBody? rules signs (c :: read) cs

/- Read a raw string after the letters in front of it. -/
def raw?
    (rules : EscapeRules)
    (cs : List Char) : Option (String × List Char) := do
  let signs := (cs.takeWhile (· = '#')).length
  if 255 < signs then
    none
  match cs.drop signs with
  | '"' :: body =>
      let (text, rest) ← rawBody? rules signs [] body
      some (String.ofList text, afterSuffix rest)
  | _ =>
      none

------------------------------------------------------------
-- Characters
------------------------------------------------------------

/- Read a character after its opening quote. -/
def quotedChar?
    (rules : EscapeRules) : List Char → Option (List Char)
  | [] =>
      none
  | c :: cs => do
      let rest ←
        if c = '\\' then (escape? rules cs).map (·.2)
        else if rules.asciiOnly && 0x7f < c.toNat then none
        else some cs
      match rest with
      | '\x27' :: rest => some (afterSuffix rest)
      | _ => none

------------------------------------------------------------
-- Numbers
------------------------------------------------------------

/- Whether a character is a decimal digit. -/
def isDigit
    (c : Char) : Bool :=
  '0' ≤ c && c ≤ '9'

/- Whether a character can stand among decimal digits. -/
def isDigitOrGap
    (c : Char) : Bool :=
  isDigit c || c = '_'

/- Whether an identifier starts here. -/
def startsIdent : List Char → Bool
  | [] => false
  | c :: _ => isIdentStart c

/-
  Read an exponent after its letter: a sign may come first, or
  after underscores, and a digit has to come.
-/
def exponent?
    (signed valued : Bool) : List Char → Option (List Char)
  | [] =>
      if valued then some [] else none
  | c :: cs =>
      if c = '+' || c = '-' then
        if valued then some (c :: cs)
        else if signed then none
        else exponent? true false cs
      else if isDigit c then
        exponent? signed true cs
      else if c = '_' then
        exponent? signed valued cs
      else if valued then
        some (c :: cs)
      else
        none

/-
  Read digits with a point or an exponent.  A letter that does
  not lead to an exponent is left to the suffix if a point has
  been read.
-/
def floatDigits?
    (cs : List Char) : Option (List Char) :=
  if !(cs.head?.any isDigit) then
    none
  else
    match cs.dropWhile isDigitOrGap with
    | '.' :: rest =>
        if rest.head? = some '.' || startsIdent rest then
          none
        else
          let rest := rest.dropWhile isDigitOrGap
          match rest with
          | c :: tail =>
              if c = 'e' || c = 'E' then
                some ((exponent? false false tail).getD rest)
              else
                some rest
          | [] =>
              some []
    | c :: rest =>
        if c = 'e' || c = 'E' then
          exponent? false false rest
        else
          none
    | [] =>
        none

/- Read digits of a base, with underscores among them. -/
def baseDigits?
    (base : Nat)
    (empty : Bool) : List Char → Option (List Char)
  | [] =>
      if empty then none else some []
  | c :: cs =>
      match hexDigit? c with
      | some digit =>
          if digit < base then baseDigits? base false cs
          else if isDigit c then none
          else if empty then none
          else some (c :: cs)
      | none =>
          if c = '_' then
            if empty && base = 10 then none
            else baseDigits? base empty cs
          else if empty then none
          else some (c :: cs)

/- Read the digits of an integer. -/
def intDigits?
    (cs : List Char) : Option (List Char) :=
  match cs with
  | '0' :: 'x' :: rest => baseDigits? 16 true rest
  | '0' :: 'o' :: rest => baseDigits? 8 true rest
  | '0' :: 'b' :: rest => baseDigits? 2 true rest
  | _ => baseDigits? 10 true cs

/- A number ends where no identifier goes on. -/
def endNumber?
    (rest : List Char) : Option (List Char) :=
  let rest := afterSuffix rest
  if rest.head?.any isIdentContinue then none else some rest

------------------------------------------------------------
-- Literals
------------------------------------------------------------

/- Read a literal that starts with fixed letters. -/
def literalAfter?
    {α : Type}
    (text : String)
    (body? : List Char → Option α)
    (cs : List Char) : Option α :=
  (after? text cs).bind body?

/- Read a literal. -/
def literal?
    (cs : List Char) : Option (SourceLiteral × List Char) :=
  (literalAfter? "\"" (quoted? .text) cs).map
      (fun (s, rest) => (.string s, rest))
    <|> (literalAfter? "r" (raw? .text) cs).map
      (fun (s, rest) => (.string s, rest))
    <|> (literalAfter? "b\"" (quoted? .bytes) cs).map
      (fun (_, rest) => (.byteString, rest))
    <|> (literalAfter? "br" (raw? .bytes) cs).map
      (fun (_, rest) => (.byteString, rest))
    <|> (literalAfter? "c\"" (quoted? .cText) cs).map
      (fun (_, rest) => (.cString, rest))
    <|> (literalAfter? "cr" (raw? .cText) cs).map
      (fun (_, rest) => (.cString, rest))
    <|> (literalAfter? "b'" (quotedChar? .bytes) cs).map
      (fun rest => (.byte, rest))
    <|> (literalAfter? "'" (quotedChar? .text) cs).map
      (fun rest => (.char, rest))
    <|> ((floatDigits? cs).bind endNumber?).map
      (fun rest => (.float, rest))
    <|> ((intDigits? cs).bind endNumber?).map
      (fun rest => (.int, rest))

end Declaration

end TreeWire
