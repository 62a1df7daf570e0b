import TreeWire.Text.IdentChar
import TreeWire.Text.SnakeCase

/-
  Snake case keeps the characters of identifiers.

  The small forms of a run of capital letters lie in one run of
  the characters of identifiers, or no letter of the run is such a
  character.  Where a run is of neither kind, its letters are.  So
  the form of a word can go on an identifier, whatever alphabet it
  is in.

  Key definitions include:
    * `CharTable.takesIn`
    * `CharTable.leavesOut`
    * `keepsBetween`
    * `CaseShift.keepsLetters`

  Main statements:
    * `isIdentContinue_of_mem_smallForm`
    * `of_mem_convert`
    * `isIdentContinue_of_mem_convert`
-/

namespace TreeWire

------------------------------------------------------------
-- Ranges and Tables
------------------------------------------------------------

/- Whether a range of code points lies in one run of a table. -/
def CharTable.takesIn
    (table : CharTable)
    (low high : Nat) : Bool :=
  (table.toList.find? fun run => high ≤ run.last).any fun run =>
    run.first ≤ low && run.step = 1
      && (run.last < 0xd800
        || (0xdfff < run.first && run.last < 0x110000))

/- Whether no run of a table comes into a range of code points. -/
def CharTable.leavesOut
    (table : CharTable)
    (low high : Nat) : Bool :=
  table.toList.all fun run => run.last < low || high < run.first

/-
  Whether the letters of a range can go on an identifier after a
  shift if they can before it.
-/
def keepsBetween
    (first last : Nat)
    (shift : Int) : Bool :=
  let low := ((first : Int) + shift).toNat
  let high := ((last : Int) + shift).toNat
  (128 ≤ low && CharTable.takesIn identStartTable low high)
    || (0x61 ≤ low && high ≤ 0x7a)
    || (CharTable.leavesOut identStartTable first last
      && CharTable.leavesOut identExtendTable first last)

/- The same for a run of letters, which may have gaps. -/
def CaseShift.keepsLetters
    (s : CaseShift) : Bool :=
  keepsBetween s.run.first s.run.last s.shift
    || (List.range (s.run.last - s.run.first + 1)).all fun k =>
      keepsBetween (s.run.first + s.run.step * k)
        (s.run.first + s.run.step * k) s.shift

theorem keepsLetters_smallFormTable :
    (smallFormTable.toList.all CaseShift.keepsLetters) = true := by
  decide +kernel

theorem toNat_ofNat
    {n : Nat}
    (h : n < 0xd800 ∨ 0xdfff < n ∧ n < 0x110000) :
    (Char.ofNat n).toNat = n := by
  rw [Char.ofNat, dif_pos h]
  rfl

theorem holds_of_takesIn
    {table : CharTable}
    {low high n : Nat}
    (h : table.takesIn low high = true)
    (hLow : low ≤ n)
    (hHigh : n ≤ high) :
    (Char.ofNat n).toNat = n ∧ table.holds (Char.ofNat n) = true := by
  rw [CharTable.takesIn, Option.any_eq_true] at h
  rcases h with ⟨run, hFound, hRun⟩
  have hLast : high ≤ run.last := by
    have hTest := List.find?_some hFound
    exact of_decide_eq_true hTest
  simp only [Bool.and_eq_true, Bool.or_eq_true,
    decide_eq_true_eq] at hRun
  rcases hRun with ⟨⟨hFirst, hStep⟩, hValid⟩
  have hChar : (Char.ofNat n).toNat = n := toNat_ofNat (by omega)
  refine ⟨hChar, ?_⟩
  rw [CharTable.holds, ← Array.any_toList, List.any_eq_true]
  refine ⟨run, List.mem_of_find?_eq_some hFound, ?_⟩
  rw [CharRun.holds, hChar, hStep, Nat.mod_one]
  simp only [Bool.and_eq_true, decide_eq_true_eq, beq_self_eq_true,
    and_true]
  omega

theorem holds_of_leavesOut
    {table : CharTable}
    {low high : Nat}
    {c : Char}
    (h : table.leavesOut low high = true)
    (hLow : low ≤ c.toNat)
    (hHigh : c.toNat ≤ high) :
    table.holds c = false := by
  rw [CharTable.holds, ← Array.any_toList, List.any_eq_false]
  intro run hMem hRun
  have hOut := List.all_eq_true.mp h run hMem
  simp only [CharRun.holds, Bool.and_eq_true, Bool.or_eq_true,
    decide_eq_true_eq] at hRun hOut
  omega

/- A small letter of the Latin alphabet can go on an identifier. -/
theorem isIdentContinue_of_latin
    {n : Nat}
    (hLow : 0x61 ≤ n)
    (hHigh : n ≤ 0x7a) :
    isIdentContinue (Char.ofNat n) = true := by
  have hAll :
      ∀ k < 26, isIdentContinue (Char.ofNat (0x61 + k)) = true := by
    decide +kernel
  have hLetter := hAll (n - 0x61) (by omega)
  rwa [Nat.add_sub_cancel' hLow] at hLetter

/- Small letters take the place of capital ones. -/
theorem isIdentContinue_toLower
    {c : Char}
    (hAscii : c.toNat < 128)
    (hChar : isIdentContinue c = true) :
    isIdentContinue c.toLower = true := by
  have hAll :
      ∀ n < 128, isIdentContinue (Char.ofNat n) = true →
        isIdentContinue (Char.ofNat n).toLower = true := by
    decide +kernel
  rw [← Char.ofNat_toNat c] at hChar ⊢
  exact hAll c.toNat hAscii hChar

theorem isIdentContinue_of_keepsBetween
    {first last : Nat}
    {shift : Int}
    {c : Char}
    (h : keepsBetween first last shift = true)
    (hFirst : first ≤ c.toNat)
    (hLast : c.toNat ≤ last)
    (hBeyond : ¬ c.toNat < 128)
    (hChar : isIdentContinue c = true) :
    isIdentContinue (Char.ofNat ((c.toNat : Int) + shift).toNat) =
      true := by
  rw [isIdentContinue, if_neg hBeyond, Bool.or_eq_true] at hChar
  simp only [keepsBetween, Bool.or_eq_true, Bool.and_eq_true,
    decide_eq_true_eq] at h
  rcases h with (⟨hBehind, hTaken⟩ | ⟨hLow, hHigh⟩) | ⟨hStart, hExtend⟩
  · have hForm :
        ((first : Int) + shift).toNat ≤
            ((c.toNat : Int) + shift).toNat ∧
          ((c.toNat : Int) + shift).toNat ≤
            ((last : Int) + shift).toNat := by
      omega
    rcases holds_of_takesIn hTaken hForm.1 hForm.2 with
      ⟨hNat, hHolds⟩
    rw [isIdentContinue, if_neg (by omega), hHolds, Bool.true_or]
  · exact isIdentContinue_of_latin (by omega) (by omega)
  · rw [holds_of_leavesOut hStart hFirst hLast,
      holds_of_leavesOut hExtend hFirst hLast] at hChar
    simp at hChar

theorem isIdentContinue_of_keepsLetters
    {s : CaseShift}
    {c : Char}
    (h : s.keepsLetters = true)
    (hRun : s.run.holds c = true)
    (hBeyond : ¬ c.toNat < 128)
    (hChar : isIdentContinue c = true) :
    isIdentContinue (Char.ofNat ((c.toNat : Int) + s.shift).toNat) =
      true := by
  simp only [CharRun.holds, Bool.and_eq_true, decide_eq_true_eq,
    beq_iff_eq] at hRun
  rcases hRun with ⟨⟨hFirst, hLast⟩, hStep⟩
  rw [CaseShift.keepsLetters, Bool.or_eq_true, List.all_eq_true] at h
  rcases h with hWhole | hEach
  · exact isIdentContinue_of_keepsBetween hWhole hFirst hLast hBeyond
      hChar
  · have hLetter :
        s.run.first + s.run.step *
            ((c.toNat - s.run.first) / s.run.step) = c.toNat := by
      have hSplit :=
        Nat.div_add_mod (c.toNat - s.run.first) s.run.step
      omega
    have hDiv := Nat.div_le_self (c.toNat - s.run.first) s.run.step
    have hOne := hEach ((c.toNat - s.run.first) / s.run.step)
      (List.mem_range.mpr (by omega))
    rw [hLetter] at hOne
    exact isIdentContinue_of_keepsBetween hOne (Nat.le_refl _)
      (Nat.le_refl _) hBeyond hChar

------------------------------------------------------------
-- Snake Case
------------------------------------------------------------

/- The dot that a small form may keep can go on an identifier. -/
theorem isIdentContinue_dot :
    isIdentContinue (Char.ofNat 0x307) = true := by
  have hTaken :
      CharTable.takesIn identExtendTable 0x307 0x307 = true := by
    decide +kernel
  have hHolds :=
    (holds_of_takesIn hTaken (Nat.le_refl _) (Nat.le_refl _)).2
  rw [isIdentContinue, if_neg (by decide), hHolds, Bool.or_true]

/- The small form of what can go on an identifier can, too. -/
theorem isIdentContinue_of_mem_smallForm
    {c d : Char}
    (hChar : isIdentContinue c = true)
    (h : d ∈ smallForm c) :
    isIdentContinue d = true := by
  unfold smallForm at h
  split at h
  · rename_i hAscii
    rw [List.mem_singleton.mp h]
    exact isIdentContinue_toLower hAscii hChar
  · rename_i hBeyond
    split at h
    · rcases List.mem_cons.mp h with rfl | hDot
      · decide
      · rw [List.mem_singleton.mp hDot]
        exact isIdentContinue_dot
    · split at h
      · rename_i s hFound
        rw [List.mem_singleton.mp h]
        rw [← Array.find?_toList] at hFound
        have hKeeps : s.keepsLetters = true :=
          List.all_eq_true.mp keepsLetters_smallFormTable s
            (List.mem_of_find?_eq_some hFound)
        have hRun : s.run.holds c = true := by
          have hTest := List.find?_some hFound
          exact hTest
        exact isIdentContinue_of_keepsLetters hKeeps hRun hBeyond hChar
      · cases List.mem_singleton.mp h
        exact hChar

/- What holds of characters and small forms holds of snake case. -/
theorem of_mem_convert
    {P : Char → Prop}
    {previous : Option Char}
    {cs : List Char}
    (hLine : P '_')
    (hForms : ∀ c, P c → ∀ d ∈ smallForm c, P d)
    (hChars : ∀ c ∈ cs, P c) :
    ∀ d ∈ SnakeCase.convert previous cs, P d := by
  induction cs generalizing previous with
  | nil => exact nofun
  | cons c cs ih =>
      rw [List.forall_mem_cons] at hChars
      have hTail : ∀ d ∈ SnakeCase.convert (some c) cs, P d :=
        ih hChars.2
      have hForm :
          ∀ d ∈ smallForm c ++ SnakeCase.convert (some c) cs, P d :=
        List.forall_mem_append.mpr ⟨hForms c hChars.1, hTail⟩
      rw [SnakeCase.convert]
      split
      · split
        · exact List.forall_mem_cons.mpr ⟨hLine, hForm⟩
        · exact hForm
      · exact List.forall_mem_cons.mpr ⟨hChars.1, hTail⟩

/- The snake case of a word can go on an identifier. -/
theorem isIdentContinue_of_mem_convert
    {previous : Option Char}
    {cs : List Char}
    (hChars : ∀ c ∈ cs, isIdentContinue c = true) :
    ∀ d ∈ SnakeCase.convert previous cs, isIdentContinue d = true :=
  of_mem_convert (P := fun c => isIdentContinue c = true) (by decide)
    (fun _ hChar _ => isIdentContinue_of_mem_smallForm hChar) hChars

end TreeWire
