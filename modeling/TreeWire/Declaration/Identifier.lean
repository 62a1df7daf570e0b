import TreeWire.Text.IdentChar

/-
  Identifiers of a declaration source.

  An identifier is a word, and may be marked as raw.  It holds
  the proof that its word is one, so that every name of a
  declaration is known to be a word.

  Key definitions include:
    * `isIdentWord`
    * `Identifier`
    * `Identifier.text`
    * `identChars?`
    * `identWord?`
-/

namespace TreeWire

namespace Declaration

------------------------------------------------------------
-- Words
------------------------------------------------------------

/- Whether characters are the word of an identifier. -/
def isIdentWord : List Char → Bool
  | [] => false
  | c :: cs => isIdentStart c && cs.all isIdentContinue

/- Read the characters of an identifier. -/
def identChars? : List Char → Option (List Char × List Char)
  | [] =>
      none
  | c :: cs =>
      if isIdentStart c then
        some (c :: cs.takeWhile isIdentContinue,
          cs.dropWhile isIdentContinue)
      else
        none

theorem isIdentWord_of_identChars?
    {cs word rest : List Char}
    (h : identChars? cs = some (word, rest)) :
    isIdentWord word = true := by
  cases cs with
  | nil => cases h
  | cons c cs =>
      rw [identChars?] at h
      split at h
      · rename_i hStart
        cases h
        rw [isIdentWord, hStart, Bool.true_and]
        exact List.all_takeWhile
      · cases h

------------------------------------------------------------
-- Identifiers
------------------------------------------------------------

/- A word, and whether it is marked as a raw identifier. -/
structure Identifier where
  word : String
  raw : Bool
  isWord : isIdentWord word.toList = true
  deriving DecidableEq, Repr

namespace Identifier

instance : Inhabited Identifier :=
  ⟨⟨"_", false, rfl⟩⟩

/- An identifier with its mark. -/
def text
    (name : Identifier) : String :=
  if name.raw then "r#" ++ name.word else name.word

end Identifier

/- Read the word of an identifier. -/
def identWord?
    (raw : Bool)
    (cs : List Char) : Option (Identifier × List Char) :=
  match h : identChars? cs with
  | some (word, rest) =>
      some (⟨String.ofList word, raw, by
        rw [String.toList_ofList]
        exact isIdentWord_of_identChars? h⟩, rest)
  | none =>
      none

end Declaration

end TreeWire
