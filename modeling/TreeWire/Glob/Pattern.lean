/-
  Patterns for file names.

  `?` stands for any character, `*` for any characters, and a
  class in brackets for one of its characters, or for one of
  the others if it starts with an exclamation mark.  `**` is a
  name of its own and stands for any number of directories.

  Key definitions include:
    * `PatternError`
    * `GlobToken`
    * `GlobPattern`
    * `GlobPattern.parse`
    * `GlobPattern.covers`
-/

namespace TreeWire

------------------------------------------------------------
-- Errors
------------------------------------------------------------

/- What is wrong with a pattern. -/
inductive PatternFault where
  | wildcards
  | recursion
  | range
  deriving DecidableEq, Repr, Inhabited

namespace PatternFault

/- A fault in words. -/
def text : PatternFault → String
  | .wildcards =>
      "wildcards are either regular `*` or recursive `**`"
  | .recursion =>
      "recursive wildcards must form a single path component"
  | .range =>
      "invalid range pattern"

end PatternFault

/- What is wrong with a pattern, and at which character. -/
structure PatternError where
  position : Nat
  fault : PatternFault
  deriving DecidableEq, Repr, Inhabited

namespace PatternError

/- An error in words. -/
def text
    (e : PatternError) : String :=
  "Pattern syntax error near position " ++ toString e.position
    ++ ": " ++ e.fault.text

end PatternError

------------------------------------------------------------
-- Tokens
------------------------------------------------------------

/- A range of characters. -/
structure CharSpan where
  first : Char
  last : Char
  deriving DecidableEq, Repr, Inhabited

namespace CharSpan

/- Whether a range holds a character. -/
def holds
    (span : CharSpan)
    (c : Char) : Bool :=
  span.first ≤ c && c ≤ span.last

end CharSpan

/- A part of a pattern. -/
inductive GlobToken where
  | char (c : Char)
  | anyChar
  | anySequence
  | anyDirectories
  | oneOf (spans : List CharSpan)
  | noneOf (spans : List CharSpan)
  deriving DecidableEq, Repr, Inhabited

/- The ranges of a class. -/
def charSpans : List Char → List CharSpan
  | a :: '-' :: b :: rest => ⟨a, b⟩ :: charSpans rest
  | a :: rest => ⟨a, a⟩ :: charSpans rest
  | [] => []

/- A pattern for a name. -/
structure GlobPattern where
  text : String
  tokens : List GlobToken
  deriving DecidableEq, Repr, Inhabited

namespace GlobPattern

------------------------------------------------------------
-- Reading
------------------------------------------------------------

/-
  Read a class after its opening bracket.  The first character
  belongs to the class, whatever it is.
-/
def readClass? : List Char → Option (GlobToken × List Char)
  | '!' :: first :: rest =>
      if rest.contains ']' then
        let body := first :: rest.takeWhile (· ≠ ']')
        some (.noneOf (charSpans body),
          (rest.dropWhile (· ≠ ']')).drop 1)
      else
        none
  | '!' :: [] =>
      none
  | first :: rest =>
      if rest.contains ']' then
        let body := first :: rest.takeWhile (· ≠ ']')
        some (.oneOf (charSpans body),
          (rest.dropWhile (· ≠ ']')).drop 1)
      else
        none
  | [] =>
      none

/- Read stars, given the character in front of them. -/
def readStars
    (position : Nat)
    (before : Option Char)
    (cs : List Char) : Except PatternError (GlobToken × List Char) :=
  let count := (cs.takeWhile (· = '*')).length
  let rest := cs.drop count
  if count = 1 then
    .ok (.anySequence, rest)
  else if 2 < count then
    .error ⟨position + 2, .wildcards⟩
  else if before.all (· = '/') then
    match rest with
    | [] => .ok (.anyDirectories, [])
    | '/' :: rest => .ok (.anyDirectories, rest)
    | _ => .error ⟨position + 2, .recursion⟩
  else
    .error ⟨position - 1, .recursion⟩

/- Read the next part of a pattern. -/
def readToken
    (position : Nat)
    (before : Option Char)
    (c : Char)
    (rest : List Char) :
    Except PatternError (GlobToken × List Char) :=
  if c = '?' then
    .ok (.anyChar, rest)
  else if c = '*' then
    readStars position before (c :: rest)
  else if c = '[' then
    match readClass? rest with
    | some result => .ok result
    | none => .error ⟨position, .range⟩
  else
    .ok (.char c, rest)

/-
  Read the parts of a pattern in so many steps at most.  `all`
  has the characters of the pattern.
-/
def readTokens
    (all : List Char) :
    (steps : Nat) →
    List Char →
    Except PatternError (List GlobToken)
  | 0, _ =>
      .ok []
  | _, [] =>
      .ok []
  | steps + 1, c :: rest => do
      let position := all.length - (rest.length + 1)
      let before :=
        if position = 0 then none else all[position - 1]?
      let (token, rest) ← readToken position before c rest
      return token :: (← readTokens all steps rest)

/- The pattern that a text is. -/
def parse
    (text : String) : Except PatternError GlobPattern := do
  let cs := text.toList
  return ⟨text, ← readTokens cs cs.length cs⟩

------------------------------------------------------------
-- Matching
------------------------------------------------------------

/- Whether a pattern stands for any number of directories. -/
def isRecursive
    (p : GlobPattern) : Bool :=
  p.tokens.contains .anyDirectories

/- Whether a pattern stands for one name only. -/
def isLiteral
    (p : GlobPattern) : Bool :=
  p.tokens.all fun token =>
    match token with
    | .char _ => true
    | _ => false

/- A list, its rest, the rest of that, to the end. -/
def suffixes
    {α : Type} : List α → List (List α)
  | [] => [[]]
  | a :: rest => (a :: rest) :: suffixes rest

/- Whether parts of a pattern stand for characters. -/
def coversChars : List GlobToken → List Char → Bool
  | [], cs =>
      cs.isEmpty
  | .anySequence :: tokens, cs =>
      (suffixes cs).any (coversChars tokens)
  | .anyDirectories :: tokens, cs =>
      (suffixes cs).any (coversChars tokens)
  | .char a :: tokens, c :: cs =>
      a = c && coversChars tokens cs
  | .anyChar :: tokens, _ :: cs =>
      coversChars tokens cs
  | .oneOf spans :: tokens, c :: cs =>
      spans.any (·.holds c) && coversChars tokens cs
  | .noneOf spans :: tokens, c :: cs =>
      !spans.any (·.holds c) && coversChars tokens cs
  | _ :: _, [] =>
      false

/- Whether a pattern stands for a name. -/
def covers
    (p : GlobPattern)
    (name : String) : Bool :=
  coversChars p.tokens name.toList

end GlobPattern

end TreeWire
