import Mathlib.Algebra.Group.Nat.Defs
import Mathlib.Data.List.Induction
import TreeWire.Number.IntText
import TreeWire.Proofs.Json.Grammar

/-
  Decimal digits and the integers that they stand for.

  The digits of a number stand for the number, and start with
  no zero unless the number is zero.  So the text of an integer
  is a number of the grammar, and is read as that integer.  The
  other way round, an integer of the grammar is the text of what
  it is read as, unless it is a negative zero.

  Main statements:
    * `digitsValue_toDigits`
    * `readInt64?_intText`
    * `number_intText`
    * `intText_of_readInt?`
-/

namespace TreeWire

open Grammar

------------------------------------------------------------
-- Values of Digits
------------------------------------------------------------

theorem digitsValue_append
    (cs ds : List Char) :
    digitsValue (cs ++ ds) =
      10 ^ ds.length * digitsValue cs + digitsValue ds := by
  change Nat.ofDigitChars 10 (cs ++ ds) 0 = _
  rw [Nat.ofDigitChars_append, Nat.ofDigitChars_eq_ofDigitChars_zero]
  rfl

theorem digitsValue_replicate_zero
    (n : Nat) :
    digitsValue (List.replicate n '0') = 0 := by
  change Nat.ofDigitChars 10 (List.replicate n '0') 0 = 0
  simp

/- The digits of a number stand for it. -/
@[simp] theorem digitsValue_toDigits
    (n : Nat) :
    digitsValue (Nat.toDigits 10 n) = n :=
  Nat.ofDigitChars_toDigits (by decide) (by decide)

theorem all_isDigit_toDigits
    (n : Nat) :
    ∀ c ∈ Nat.toDigits 10 n, c.isDigit = true := fun _ =>
  Nat.isDigit_of_mem_toDigits (by decide) (by decide)

@[simp] theorem isDigits_toDigits
    (n : Nat) :
    isDigits (Nat.toDigits 10 n) = true := by
  have hAll := all_isDigit_toDigits n
  simpa [isDigits] using hAll

/- Only zero starts with a zero. -/
theorem head?_toDigits_ne_zero
    {n : Nat}
    (h : 0 < n) :
    (Nat.toDigits 10 n).head? ≠ some '0' := by
  induction n using Nat.strongRecOn with
  | ind n ih =>
      by_cases hSmall : n < 10
      · rw [Nat.toDigits_of_lt_base hSmall]
        simp
        omega
      · have hTens : 0 < n / 10 := by omega
        rw [Nat.toDigits_of_base_le (by decide) (by omega)]
        have hHead := ih (n / 10) (by omega) hTens
        cases hDigits : Nat.toDigits 10 (n / 10) with
        | nil => exact absurd hDigits Nat.toDigits_ne_nil
        | cons c cs =>
            rw [hDigits] at hHead
            exact hHead

------------------------------------------------------------
-- Integers
------------------------------------------------------------

/- Digits are no sign. -/
theorem toDigits_ne_sign
    {n : Nat}
    {c : Char}
    (h : c.isDigit = false)
    (cs : List Char) :
    Nat.toDigits 10 n ≠ c :: cs := by
  intro hEq
  have hDigit := all_isDigit_toDigits n c (by simp [hEq])
  rw [h] at hDigit
  cases hDigit

theorem readNat?_toDigits
    (n : Nat) :
    readNat? (String.ofList (Nat.toDigits 10 n)) = some n := by
  rw [readNat?, String.toList_ofList]
  split
  · rename_i cs hPlus
    exact absurd hPlus (toDigits_ne_sign rfl cs)
  · simp

/- The text of an integer is read as that integer. -/
theorem readInt?_intText
    (n : Int) :
    readInt? (intText n) = some n := by
  cases n with
  | ofNat m =>
      rw [readInt?, intText, String.toList_ofList]
      split
      · rename_i cs hMinus
        exact absurd hMinus (toDigits_ne_sign rfl cs)
      · rw [readNat?_toDigits]
        rfl
  | negSucc m =>
      rw [readInt?, intText, String.toList_ofList]
      simp [Int.negSucc_eq]

theorem readInt64?_intText
    (n : Int64) :
    readInt64? (intText n.toInt) = some n := by
  have hLow := n.le_toInt
  have hHigh := n.toInt_lt
  rw [readInt64?, readInt?_intText]
  simp only
  rw [if_pos ⟨hLow, hHigh⟩, Int64.ofInt_toInt]

------------------------------------------------------------
-- Integers in the Grammar
------------------------------------------------------------

theorem isDigit_iff
    {c : Char} :
    c.isDigit = true ↔ 0x30 ≤ c.toNat ∧ c.toNat ≤ 0x39 := by
  simp [Char.isDigit, UInt32.le_iff_toNat_le]

/- Digits are digits of the grammar, byte by byte. -/
theorem digits_utf8
    {cs : List Char}
    (hDigits : ∀ c ∈ cs, c.isDigit = true) :
    ∀ b ∈ utf8 cs, 0x30 ≤ b ∧ b ≤ 0x39 := by
  induction cs with
  | nil => exact nofun
  | cons c cs ih =>
      rw [List.forall_mem_cons, isDigit_iff] at hDigits
      rcases hDigits with ⟨⟨hLow, hHigh⟩, hRest⟩
      rw [utf8_cons_ascii _ (by omega), List.forall_mem_cons]
      refine ⟨?_, ih hRest⟩
      have hNat : (UInt8.ofNat c.toNat).toNat = c.toNat :=
        UInt8.toNat_ofNat_of_lt' (Nat.lt_of_le_of_lt hHigh (by decide))
      rw [UInt8.le_iff_toNat_le, UInt8.le_iff_toNat_le, hNat]
      exact ⟨hLow, hHigh⟩

theorem grammarDigits_utf8
    {cs : List Char}
    (hDigits : ∀ c ∈ cs, c.isDigit = true)
    (hNil : cs ≠ []) :
    Digits (utf8 cs) := by
  refine ⟨?_, digits_utf8 hDigits⟩
  intro hEmpty
  exact hNil (utf8_injective hEmpty)

/- Digits that start with no zero stand before a point. -/
theorem whole_utf8
    {cs : List Char}
    (hDigits : ∀ c ∈ cs, c.isDigit = true)
    (hNil : cs ≠ [])
    (hFirst : cs.head? ≠ some '0') :
    Whole (utf8 cs) := by
  refine .digits (grammarDigits_utf8 hDigits hNil) ?_
  cases cs with
  | nil => exact absurd rfl hNil
  | cons c cs =>
      have hDigit := isDigit_iff.mp (hDigits c (by simp))
      rw [utf8_cons_ascii _ (by omega)]
      intro hZero
      have hByte := congrArg UInt8.toNat (Option.some.inj hZero)
      rw [UInt8.toNat_ofNat_of_lt'
        (Nat.lt_of_le_of_lt hDigit.2 (by decide))] at hByte
      apply hFirst
      rw [List.head?_cons, Option.some.injEq]
      exact Char.toNat_inj.mp hByte

theorem whole_toDigits
    (n : Nat) :
    Whole (utf8 (Nat.toDigits 10 n)) := by
  by_cases hZero : n = 0
  · subst hZero
    exact .zero
  · exact whole_utf8 (all_isDigit_toDigits n) Nat.toDigits_ne_nil
      (head?_toDigits_ne_zero (Nat.pos_of_ne_zero hZero))

/- The text of an integer is an integer of the grammar. -/
theorem number_intText
    (n : Int) :
    Number (utf8 (intText n).toList) .int := by
  cases n with
  | ofNat m =>
      have hNumber :=
        Number.mk (.inl rfl) (whole_toDigits m) .none .none
      rw [intText, String.toList_ofList]
      simpa using hNumber
  | negSucc m =>
      have hNumber :=
        Number.mk (.inr rfl) (whole_toDigits (m + 1)) .none .none
      rw [intText, String.toList_ofList,
        utf8_cons_ascii _ (by decide)]
      simpa using hNumber

------------------------------------------------------------
-- Integers of the Grammar
------------------------------------------------------------

theorem digitChar_digitValue
    {c : Char}
    (h : c.isDigit = true) :
    digitValue c < 10 ∧ Nat.digitChar (digitValue c) = c := by
  have hRange := isDigit_iff.mp h
  have hZero : '0'.toNat = 0x30 := rfl
  have hValue : digitValue c < 10 := by
    rw [digitValue, hZero]
    omega
  refine ⟨hValue, ?_⟩
  rw [← Char.toNat_inj, Nat.toNat_digitChar_of_lt_ten hValue,
    digitValue, hZero]
  omega

/- Digits that start with no zero are those of their value. -/
theorem toDigits_digitsValue
    {cs : List Char}
    (hDigits : ∀ c ∈ cs, c.isDigit = true)
    (hNil : cs ≠ [])
    (hFirst : cs.head? ≠ some '0') :
    0 < digitsValue cs ∧ Nat.toDigits 10 (digitsValue cs) = cs := by
  induction cs using List.reverseRecOn with
  | nil => exact absurd rfl hNil
  | append_singleton cs c ih =>
      rw [List.forall_mem_append, List.forall_mem_singleton]
        at hDigits
      rcases digitChar_digitValue hDigits.2 with ⟨hSmall, hChar⟩
      have hLast : digitsValue [c] = digitValue c := by
        simp [digitsValue]
      rw [digitsValue_append, List.length_singleton, Nat.pow_one, hLast]
      by_cases hAlone : cs = []
      · subst hAlone
        have hPos : 0 < digitValue c := by
          apply Nat.pos_of_ne_zero
          intro hZero
          rw [hZero] at hChar
          exact hFirst (congrArg some hChar.symm)
        simp only [digitsValue, List.foldl_nil, Nat.mul_zero,
          Nat.zero_add, List.nil_append]
        rw [Nat.toDigits_of_lt_base hSmall, hChar]
        exact ⟨hPos, rfl⟩
      · have hHead : cs.head? ≠ some '0' := by
          intro hZero
          exact hFirst (by simp [hZero])
        rcases ih hDigits.1 hAlone hHead with ⟨hPos, hBefore⟩
        refine ⟨by omega, ?_⟩
        rw [← Nat.toDigits_append_toDigits (by decide) hPos hSmall,
          hBefore, Nat.toDigits_of_lt_base hSmall, hChar]

/- Bytes that are digits come from characters that are. -/
theorem isDigit_of_utf8
    {cs : List Char}
    (h : ∀ b ∈ utf8 cs, 0x30 ≤ b ∧ b ≤ 0x39) :
    ∀ c ∈ cs, c.isDigit = true := by
  induction cs with
  | nil => exact nofun
  | cons c cs ih =>
      rw [utf8_cons, List.forall_mem_append] at h
      rw [List.forall_mem_cons]
      refine ⟨?_, ih h.2⟩
      rcases utf8EncodeChar_cases c with ⟨hLow, hOne⟩ | ⟨_, hHigh⟩
      · have hByte := h.1 (UInt8.ofNat c.toNat) (by simp [hOne])
        rw [UInt8.le_iff_toNat_le, UInt8.le_iff_toNat_le,
          UInt8.toNat_ofNat_of_lt' (Nat.lt_trans hLow (by decide))]
          at hByte
        exact isDigit_iff.mpr hByte
      · rcases utf8EncodeChar_eq_cons c with ⟨b, bs, hBytes, _, _⟩
        have hMem : b ∈ String.utf8EncodeChar c := by simp [hBytes]
        have hBoth := UInt8.le_trans (hHigh b hMem) (h.1 b hMem).2
        exact absurd hBoth (by decide)

/- A whole number of the grammar is written as its digits. -/
theorem toDigits_of_whole
    {cs : List Char}
    (h : Whole (utf8 cs)) :
    isDigits cs = true ∧
      Nat.toDigits 10 (digitsValue cs) = cs := by
  generalize hBytes : utf8 cs = bytes at h
  cases h with
  | zero =>
      have hZero : cs = ['0'] := utf8_injective hBytes
      subst hZero
      exact ⟨rfl, rfl⟩
  | digits hDigits hFirst =>
      subst hBytes
      have hAll := isDigit_of_utf8 hDigits.2
      have hNil : cs ≠ [] := by
        intro hEmpty
        exact hDigits.1 (by simp [hEmpty])
      have hHead : cs.head? ≠ some '0' := by
        intro hZero
        cases cs with
        | nil => cases hZero
        | cons c rest =>
            cases hZero
            exact hFirst rfl
      refine ⟨?_, (toDigits_digitsValue hAll hNil hHead).2⟩
      simpa [isDigits, hNil] using hAll

/- The text of digits after a minus sign. -/
theorem eq_minus_of_utf8
    {cs : List Char}
    {bytes : List UInt8}
    (h : utf8 cs = 0x2d :: bytes) :
    ∃ ds, cs = '-' :: ds ∧ utf8 ds = bytes := by
  cases cs with
  | nil => cases h
  | cons c ds =>
      have hBoth :
          String.utf8EncodeChar c ++ utf8 ds =
            String.utf8EncodeChar '-' ++ bytes := h
      rcases utf8EncodeChar_append_inj hBoth with ⟨rfl, hRest⟩
      exact ⟨ds, rfl, hRest⟩

theorem intText_natCast
    (m : Nat) :
    intText m = String.ofList (Nat.toDigits 10 m) :=
  rfl

/- An integer of the grammar is the text of what it is read as. -/
theorem intText_of_readInt?
    {text : String}
    {n : Int}
    (hNumber : Number (utf8 text.toList) .int)
    (hRead : readInt? text = some n)
    (hZero : text ≠ "-0") :
    text = intText n := by
  rcases hNumber.int_cases with hWhole | ⟨whole, hBytes, hWhole⟩
  · rcases toDigits_of_whole hWhole with ⟨hDigits, hSame⟩
    have hValue : readInt? text = some (digitsValue text.toList) := by
      have hText := readInt?_intText (digitsValue text.toList)
      rwa [intText_natCast, hSame, String.ofList_toList] at hText
    rw [hValue] at hRead
    cases hRead
    rw [intText_natCast, hSame, String.ofList_toList]
  · rcases eq_minus_of_utf8 hBytes with ⟨ds, hText, rfl⟩
    rcases toDigits_of_whole hWhole with ⟨hDigits, hSame⟩
    rw [readInt?, hText] at hRead
    simp only [hDigits, if_true, Option.some.injEq] at hRead
    cases hValue : digitsValue ds with
    | zero =>
        rw [hValue, Nat.toDigits_zero] at hSame
        subst hSame
        exact absurd (String.toList_inj.mp hText) hZero
    | succ m =>
        rw [hValue] at hRead hSame
        rw [← hRead, ← String.toList_inj, hText]
        change _ = (String.ofList _).toList
        rw [String.toList_ofList, hSame]

end TreeWire
