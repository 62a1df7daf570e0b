import Mathlib.Data.List.Basic
import TreeWire.Text.SnakeCase

/-
  Snake case of type names.

  Of a name in ASCII, snake case makes every letter small and puts
  underscores in front of some of them.  Where it does is marked
  letter by letter.  A mark has a character in front of it, and
  neither of the two is an underscore.

  A conventional name is made of words, each a capital letter and
  then small letters or digits.  Snake case cuts it at the words,
  so that capitals behind the cuts give the name back.

  Key definitions include:
    * `SnakeCase.marks`
    * `SnakeCase.marked`
    * `SnakeCase.isWord`
    * `SnakeCase.restore`

  Main statements:
    * `SnakeCase.convert_eq_marked`
    * `SnakeCase.around_of_marks`
    * `SnakeCase.convert_words`
    * `SnakeCase.restore_convert`
    * `snakeCase_of_typeNames`
-/

namespace TreeWire

namespace SnakeCase

------------------------------------------------------------
-- Characters of ASCII
------------------------------------------------------------

/- Whether all characters are in ASCII. -/
def IsAscii
    (cs : List Char) : Prop :=
  ∀ c ∈ cs, c.toNat < 128

theorem isCapital_of_ascii
    {c : Char}
    (h : c.toNat < 128) :
    isCapital c = c.isUpper := by
  rw [isCapital, if_pos h]

theorem smallForm_of_ascii
    {c : Char}
    (h : c.toNat < 128) :
    smallForm c = [c.toLower] := by
  rw [smallForm, if_pos h]

theorem toLower_of_not_isUpper
    {c : Char}
    (h : c.isUpper = false) :
    c.toLower = c :=
  dif_neg (of_decide_eq_false h)

/- How letter case moves the characters of ASCII. -/
structure LetterCase
    (c : Char) : Prop where
  small : isCapital c.toLower = false
  capital :
    c.isUpper = true →
      isCapital c = true ∧ c.toLower ≠ '_' ∧ c.toLower.toUpper = c
  behind :
    (c.isLower || c.isDigit) = true →
      isCapital c = false ∧ c.toLower = c ∧ c ≠ '_' ∧
        (isSmall c || c.isDigit) = true

theorem letterCase_of_ascii
    {c : Char}
    (h : c.toNat < 128) :
    LetterCase c := by
  have hAll :
      ∀ n < 128,
        isCapital (Char.ofNat n).toLower = false ∧
          ((Char.ofNat n).isUpper = true →
            isCapital (Char.ofNat n) = true ∧
              (Char.ofNat n).toLower ≠ '_' ∧
              (Char.ofNat n).toLower.toUpper = Char.ofNat n) ∧
          (((Char.ofNat n).isLower || (Char.ofNat n).isDigit) = true →
            isCapital (Char.ofNat n) = false ∧
              (Char.ofNat n).toLower = Char.ofNat n ∧
              Char.ofNat n ≠ '_' ∧
              (isSmall (Char.ofNat n) || (Char.ofNat n).isDigit) =
                true) := by
    decide +kernel
  rcases hAll c.toNat h with ⟨hSmall, hCapital, hBehind⟩
  rw [Char.ofNat_toNat] at hSmall hCapital hBehind
  exact ⟨hSmall, hCapital, hBehind⟩

------------------------------------------------------------
-- Marks
------------------------------------------------------------

/-
  For each character of a name whether snake case puts an
  underscore in front of it.
-/
def marks
    (previous : Option Char) :
    List Char → List Bool
  | [] =>
      []
  | c :: rest =>
      (isCapital c && beginsWord previous rest.head?)
        :: marks (some c) rest

/- A character in small form, behind an underscore if marked. -/
def markedChar
    (mark : Bool)
    (c : Char) : List Char :=
  if mark then ['_', c.toLower] else [c.toLower]

/- Small forms, with underscores in front of the marked ones. -/
def marked
    (ms : List Bool)
    (cs : List Char) : List Char :=
  (List.zipWith markedChar ms cs).flatten

theorem length_marks
    (previous : Option Char)
    (cs : List Char) :
    (marks previous cs).length = cs.length := by
  induction cs generalizing previous with
  | nil => rfl
  | cons c cs ih => rw [marks, List.length_cons, List.length_cons, ih]

/- Snake case puts underscores in, and makes letters small. -/
theorem convert_eq_marked
    (previous : Option Char)
    {cs : List Char}
    (h : IsAscii cs) :
    convert previous cs = marked (marks previous cs) cs := by
  induction cs generalizing previous with
  | nil => rfl
  | cons c cs ih =>
      rw [IsAscii, List.forall_mem_cons] at h
      rw [convert, marks, marked, List.zipWith_cons_cons,
        List.flatten_cons, ← marked, ← ih (some c) h.2,
        smallForm_of_ascii h.1]
      cases hCapital : isCapital c with
      | true =>
          cases beginsWord previous cs.head? <;> rfl
      | false =>
          rw [isCapital_of_ascii h.1] at hCapital
          rw [Bool.false_and, markedChar, if_neg Bool.false_ne_true,
            toLower_of_not_isUpper hCapital]
          rfl

/- What stands in front of a word is a letter or a digit. -/
theorem exists_of_beginsWord
    {previous next : Option Char}
    (h : beginsWord previous next = true) :
    ∃ p, previous = some p ∧ p ≠ '_' := by
  cases previous with
  | none => cases h
  | some p =>
      refine ⟨p, rfl, ?_⟩
      rintro rfl
      cases h

/- A mark has a character on each side, and no underscore. -/
theorem around_of_marks
    {previous : Option Char}
    {cs : List Char}
    {i : Nat}
    (h : (marks previous cs)[i]? = some true) :
    ∃ p c,
      (previous :: cs.map some)[i]? = some (some p) ∧
        cs[i]? = some c ∧ p ≠ '_' ∧ c ≠ '_' := by
  induction cs generalizing previous i with
  | nil => cases h
  | cons c cs ih =>
      cases i with
      | zero =>
          have hMark : isCapital c = true ∧
              beginsWord previous cs.head? = true := by
            simpa [marks] using h
          rcases exists_of_beginsWord hMark.2 with ⟨p, rfl, hLine⟩
          refine ⟨p, c, rfl, rfl, hLine, ?_⟩
          rintro rfl
          exact absurd hMark.1 (by decide)
      | succ i => exact ih h

/- Without underscores, what is marked is as it was. -/
theorem filter_marked
    (ms : List Bool)
    (cs : List Char)
    (hLength : ms.length = cs.length) :
    (marked ms cs).filter (· ≠ '_') =
      (cs.map Char.toLower).filter (· ≠ '_') := by
  induction cs generalizing ms with
  | nil =>
      rw [List.length_eq_zero_iff.mp hLength]
      rfl
  | cons c cs ih =>
      cases ms with
      | nil => cases hLength
      | cons m ms =>
          have hTail := ih ms (Nat.succ.inj hLength)
          rw [marked, List.zipWith_cons_cons, List.flatten_cons,
            ← marked, List.filter_append, hTail, List.map_cons,
            ← List.singleton_append, List.filter_append]
          cases m <;> rfl

/- Small forms and underscores are no capital letters. -/
theorem forall_mem_marked
    (ms : List Bool)
    {cs : List Char}
    (h : IsAscii cs) :
    ∀ c ∈ marked ms cs, isCapital c = false := by
  induction cs generalizing ms with
  | nil =>
      rw [marked, List.zipWith_nil_right]
      exact nofun
  | cons c cs ih =>
      rw [IsAscii, List.forall_mem_cons] at h
      cases ms with
      | nil => exact nofun
      | cons m ms =>
          have hChar := (letterCase_of_ascii h.1).small
          have hLine : isCapital '_' = false := by decide
          rw [marked, List.zipWith_cons_cons, List.flatten_cons,
            ← marked, List.forall_mem_append]
          refine ⟨?_, ih ms h.2⟩
          cases m <;> simp [markedChar, hChar, hLine]

------------------------------------------------------------
-- Conventional Names
------------------------------------------------------------

/- Whether characters are small letters and digits of ASCII. -/
def isWordRest
    (cs : List Char) : Bool :=
  cs.all fun c => c.isLower || c.isDigit

/-
  Whether characters are a word of a conventional name: a capital
  letter, and then small letters or digits, at least one.
-/
def isWord : List Char → Bool
  | [] => false
  | c :: cs => c.isUpper && !cs.isEmpty && isWordRest cs

/- Characters in small form. -/
def small
    (cs : List Char) : List Char :=
  cs.map Char.toLower

/-
  The characters of a name from its snake case, where `first` says
  that a word begins.
-/
def restore
    (first : Bool) :
    List Char → List Char
  | [] =>
      []
  | c :: cs =>
      if c = '_' then
        restore true cs
      else
        (if first then c.toUpper else c) :: restore false cs

theorem ascii_of_isUpper
    {c : Char}
    (h : c.isUpper = true) :
    c.toNat < 128 := by
  have hHigh : c.val.toNat ≤ 'Z'.val.toNat :=
    (of_decide_eq_true h).2
  rw [← Char.toNat_val]
  exact Nat.lt_of_le_of_lt hHigh (by decide)

theorem ascii_of_isLower_or_isDigit
    {c : Char}
    (h : (c.isLower || c.isDigit) = true) :
    c.toNat < 128 := by
  rw [← Char.toNat_val]
  rcases (Bool.or_eq_true _ _).mp h with hLower | hDigit
  · have hHigh : c.val.toNat ≤ 'z'.val.toNat :=
      of_decide_eq_true ((Bool.and_eq_true _ _).mp hLower).2
    exact Nat.lt_of_le_of_lt hHigh (by decide)
  · have hHigh : c.val.toNat ≤ '9'.val.toNat :=
      of_decide_eq_true ((Bool.and_eq_true _ _).mp hDigit).2
    exact Nat.lt_of_le_of_lt hHigh (by decide)

/- A capital letter has a small form that can be taken back. -/
theorem capital_facts
    {c : Char}
    (h : c.isUpper = true) :
    isCapital c = true ∧ c.toLower ≠ '_' ∧ c.toLower.toUpper = c :=
  (letterCase_of_ascii (ascii_of_isUpper h)).capital h

/- A word can begin behind a small letter or a digit. -/
theorem small_facts
    {c : Char}
    (h : (c.isLower || c.isDigit) = true) :
    isCapital c = false ∧ c.toLower = c ∧ c ≠ '_' ∧
      (isSmall c || c.isDigit) = true :=
  (letterCase_of_ascii (ascii_of_isLower_or_isDigit h)).behind h

/- Snake case keeps small letters and digits. -/
theorem convert_rest
    (previous : Option Char)
    {tail : List Char}
    (rest : List Char)
    (h : isWordRest tail = true) :
    convert previous (tail ++ rest) =
      tail ++ convert (tail.getLast?.or previous) rest := by
  induction tail generalizing previous with
  | nil => rfl
  | cons c tail ih =>
      rw [isWordRest, List.all_cons, Bool.and_eq_true] at h
      have hCapital := (small_facts h.1).1
      have hLast :
          (c :: tail).getLast?.or previous =
            tail.getLast?.or (some c) := by
        rw [List.getLast?_cons]
        cases tail.getLast? <;> rfl
      rw [hLast, List.cons_append, convert, hCapital, ih (some c) h.2]
      rfl

theorem small_rest
    {tail : List Char}
    (h : isWordRest tail = true) :
    small tail = tail := by
  rw [isWordRest, List.all_eq_true] at h
  rw [small]
  conv_rhs => rw [← List.map_id tail]
  exact List.map_congr_left fun c hMem => (small_facts (h c hMem)).2.1

/-
  Snake case makes a word small, puts an underscore in front of it
  where it begins behind something, and goes on behind a small
  letter or a digit.
-/
theorem convert_word
    (previous : Option Char)
    {word : List Char}
    (rest : List Char)
    (h : isWord word = true) :
    ∃ last, (isSmall last || last.isDigit) = true ∧
      convert previous (word ++ rest) =
        (if beginsWord previous (word ++ rest).tail.head? then
            ['_']
          else
            []) ++ small word ++ convert (some last) rest := by
  cases word with
  | nil => cases h
  | cons c tail =>
      simp only [isWord, Bool.and_eq_true, Bool.not_eq_true',
        List.isEmpty_eq_false_iff] at h
      rcases h with ⟨⟨hUpper, hNonempty⟩, hTail⟩
      have hAscii := ascii_of_isUpper hUpper
      have hChars := List.all_eq_true.mp hTail
      have hMem := List.getLast_mem hNonempty
      refine ⟨tail.getLast hNonempty,
        (small_facts (hChars _ hMem)).2.2.2, ?_⟩
      rw [List.cons_append, convert, (capital_facts hUpper).1,
        if_pos rfl, smallForm_of_ascii hAscii,
        convert_rest (some c) rest hTail,
        List.getLast?_eq_getLast_of_ne_nil hNonempty, Option.some_or,
        List.tail_cons, small, List.map_cons, ← small,
        small_rest hTail]
      split <;> simp

/- Behind a word, each word gets an underscore. -/
theorem convert_words_behind
    {last : Char}
    (hLast : (isSmall last || last.isDigit) = true)
    {words : List (List Char)}
    (h : ∀ w ∈ words, isWord w = true) :
    convert (some last) words.flatten =
      (words.map fun w => '_' :: small w).flatten := by
  induction words generalizing last with
  | nil => rfl
  | cons word words ih =>
      rw [List.forall_mem_cons] at h
      rcases convert_word (some last) words.flatten h.1 with
        ⟨next, hNext, hWord⟩
      have hBegins :
          beginsWord (some last) (word ++ words.flatten).tail.head? =
            true := by
        rw [beginsWord, hLast, Bool.true_or]
      rw [List.flatten_cons, hWord, if_pos hBegins, ih hNext h.2]
      rfl

theorem intercalate_line
    (word : List Char)
    (words : List (List Char)) :
    ['_'].intercalate (word :: words) =
      word ++ (words.map ('_' :: ·)).flatten := by
  induction words generalizing word with
  | nil => rw [List.intercalate_singleton]; simp
  | cons next words ih =>
      rw [List.intercalate_cons_cons, ih next, List.append_assoc]
      rfl

/- The words of a conventional name are joined by underscores. -/
theorem convert_words
    {words : List (List Char)}
    (h : ∀ w ∈ words, isWord w = true) :
    convert none words.flatten =
      ['_'].intercalate (words.map small) := by
  cases words with
  | nil => rfl
  | cons word words =>
      rw [List.forall_mem_cons] at h
      rcases convert_word none words.flatten h.1 with
        ⟨last, hLast, hWord⟩
      rw [List.flatten_cons, hWord, convert_words_behind hLast h.2,
        List.map_cons, intercalate_line, List.map_map]
      rfl

------------------------------------------------------------
-- Names from Their Snake Case
------------------------------------------------------------

theorem restore_rest
    {tail : List Char}
    (rest : List Char)
    (h : isWordRest tail = true) :
    restore false (tail ++ rest) = tail ++ restore false rest := by
  induction tail with
  | nil => rfl
  | cons c tail ih =>
      rw [isWordRest, List.all_cons, Bool.and_eq_true] at h
      rw [List.cons_append, restore, if_neg (small_facts h.1).2.2.1,
        ih h.2]
      rfl

theorem restore_word
    {word : List Char}
    (rest : List Char)
    (h : isWord word = true) :
    restore true (small word ++ rest) = word ++ restore false rest := by
  cases word with
  | nil => cases h
  | cons c tail =>
      simp only [isWord, Bool.and_eq_true] at h
      rcases h with ⟨⟨hUpper, _⟩, hTail⟩
      rcases capital_facts hUpper with ⟨_, hLine, hBack⟩
      rw [small, List.map_cons, ← small, small_rest hTail,
        List.cons_append, restore, if_neg hLine, if_pos rfl, hBack,
        restore_rest rest hTail]
      rfl

theorem restore_words_behind
    {words : List (List Char)}
    (h : ∀ w ∈ words, isWord w = true) :
    restore false (words.map fun w => '_' :: small w).flatten =
      words.flatten := by
  induction words with
  | nil => rfl
  | cons word words ih =>
      rw [List.forall_mem_cons] at h
      rw [List.map_cons, List.flatten_cons, List.cons_append, restore,
        if_pos rfl, restore_word _ h.1, ih h.2, List.flatten_cons]

/- Capitals behind the underscores give the name back. -/
theorem restore_convert
    {words : List (List Char)}
    (h : ∀ w ∈ words, isWord w = true) :
    restore true (convert none words.flatten) = words.flatten := by
  rw [convert_words h]
  cases words with
  | nil => rfl
  | cons word words =>
      rw [List.forall_mem_cons] at h
      rw [List.map_cons, intercalate_line, restore_word _ h.1,
        List.map_map]
      exact congrArg (word ++ ·) (restore_words_behind h.2)

end SnakeCase

------------------------------------------------------------
-- Snake Case of Names
------------------------------------------------------------

open SnakeCase

/-
  Snake case is faithful.  It leaves no capital letter in a name in
  ASCII, and but for underscores it has the small forms of its
  characters, in their order.  The underscores that it puts in
  stand between two characters of the name that are no underscores.
  The words of a conventional name come out small, with underscores
  between them, and no two such names have the same snake case.
-/
theorem snakeCase_of_typeNames :
    (∀ name : String, IsAscii name.toList →
      (∀ c ∈ (snakeCase name).toList, isCapital c = false) ∧
        (snakeCase name).toList.filter (· ≠ '_') =
          (small name.toList).filter (· ≠ '_') ∧
        ∃ ms, ms.length = name.toList.length ∧
          (snakeCase name).toList = marked ms name.toList ∧
          ∀ i, ms[i]? = some true →
            ∃ p c, 0 < i ∧ name.toList[i - 1]? = some p ∧
              name.toList[i]? = some c ∧ p ≠ '_' ∧ c ≠ '_') ∧
    (∀ words : List (List Char), (∀ w ∈ words, isWord w = true) →
      (snakeCase (String.ofList words.flatten)).toList =
        ['_'].intercalate (words.map small)) ∧
    ∀ words others : List (List Char),
      (∀ w ∈ words, isWord w = true) →
      (∀ w ∈ others, isWord w = true) →
      snakeCase (String.ofList words.flatten) =
        snakeCase (String.ofList others.flatten) →
      words.flatten = others.flatten := by
  refine ⟨?_, ?_, ?_⟩
  · intro name hAscii
    have hMarked : (snakeCase name).toList =
        marked (marks none name.toList) name.toList := by
      rw [snakeCase, String.toList_ofList, convert_eq_marked none hAscii]
    refine ⟨?_, ?_, marks none name.toList,
      length_marks none name.toList, hMarked, ?_⟩
    · rw [hMarked]
      exact forall_mem_marked _ hAscii
    · rw [hMarked]
      exact filter_marked _ _ (length_marks none name.toList)
    · intro i hMark
      rcases around_of_marks hMark with ⟨p, c, hBefore, hAt, hSides⟩
      cases i with
      | zero => cases hBefore
      | succ i =>
          refine ⟨p, c, i.succ_pos, ?_, hAt, hSides⟩
          simpa using hBefore
  · intro words hWords
    rw [snakeCase, String.toList_ofList, String.toList_ofList,
      convert_words hWords]
  · intro words others hWords hOthers hEq
    rw [snakeCase, snakeCase, String.ofList_inj, String.toList_ofList,
      String.toList_ofList] at hEq
    rw [← restore_convert hWords, hEq, restore_convert hOthers]

/- The words of two conventional names. -/
def literalWords : List (List Char) :=
  [['U', 't', 'f', '8'], ['L', 'i', 't']]

def statementWords : List (List Char) :=
  [['I', 'f'], ['S', 't', 'm', 't']]

/-
  An underscore of a name stays alone, words with digits are kept
  apart, and two conventional names differ in snake case.
-/
theorem snakeCase_literal_and_statement :
    IsAscii "HTTPHeader_X".toList ∧
    (∀ c ∈ (snakeCase "HTTPHeader_X").toList, isCapital c = false) ∧
    (∀ w ∈ literalWords, isWord w = true) ∧
    (snakeCase (String.ofList literalWords.flatten)).toList =
      ['u', 't', 'f', '8', '_', 'l', 'i', 't'] ∧
    (∀ w ∈ statementWords, isWord w = true) ∧
    snakeCase (String.ofList literalWords.flatten) ≠
      snakeCase (String.ofList statementWords.flatten) := by
  have hAscii : IsAscii "HTTPHeader_X".toList := by
    simp [IsAscii]
  have hLiteral : ∀ w ∈ literalWords, isWord w = true := by
    decide
  have hStatement :
      ∀ w ∈ statementWords, isWord w = true := by
    decide
  have hJoined :
      ['_'].intercalate (literalWords.map small) =
        ['u', 't', 'f', '8', '_', 'l', 'i', 't'] := by
    decide
  refine ⟨hAscii, (snakeCase_of_typeNames.1 _ hAscii).1, hLiteral, ?_,
    hStatement, ?_⟩
  · rw [snakeCase_of_typeNames.2.1 _ hLiteral, hJoined]
  · intro hEq
    have hNames :=
      snakeCase_of_typeNames.2.2 _ _ hLiteral hStatement hEq
    exact absurd hNames (by decide)

end TreeWire
