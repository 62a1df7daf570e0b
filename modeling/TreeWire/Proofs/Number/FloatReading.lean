import TreeWire.Number.FloatText
import TreeWire.Proofs.Number.Digits
import TreeWire.Proofs.Number.ShortestDecimal

/-
  The text of a double is read as the double.

  A numeral is digits with a point, or with an exponent, or with
  both.  A decimal is written as a numeral of the same value, and
  a numeral is read as the decimal that it shows.  The double
  nearest to a decimal in the interval of a double is that
  double, so the text of a double gives it back.

  Key definitions include:
    * `Numeral`

  Main statements:
    * `Numeral.read?_eq`
    * `Numeral.number`
    * `Decimal.exists_numeral`
    * `readFloat?_text`
    * `number_text`
-/

namespace TreeWire

open Grammar

------------------------------------------------------------
-- The Nearest Double
------------------------------------------------------------

namespace Decimal

variable {x : Binary64} {d : Decimal}

/- The first digit tells the size of a decimal. -/
theorem value_bounds
    (hPos : 0 < d.coefficient) :
    (10 : ℚ) ^ d.leading ≤ d.value ∧
      d.value < 10 ^ (d.leading + 1) := by
  have hLength : 0 < d.digits.length := Nat.length_toDigits_pos
  have hTen : (10 : ℚ) ≠ 0 := by norm_num
  have hBelow : (d.coefficient : ℚ) < 10 ^ (d.digits.length : Int) := by
    exact_mod_cast (Nat.length_toDigits_le_iff (by decide) hLength).mp
      (Nat.le_refl d.digits.length)
  have hAbove :
      (10 : ℚ) ^ ((d.digits.length : Int) - 1) ≤ d.coefficient := by
    have hNat : 10 ^ (d.digits.length - 1) ≤ d.coefficient := by
      by_cases hOne : d.digits.length = 1
      · rw [hOne]
        exact hPos
      · apply Nat.le_of_not_lt
        intro hLt
        have hShort :=
          (Nat.length_toDigits_le_iff (by decide)
            (by omega : 0 < d.digits.length - 1)).mpr hLt
        have hSame :
            (Nat.toDigits 10 d.coefficient).length =
              d.digits.length := rfl
        omega
    have hCast :
        ((10 ^ (d.digits.length - 1) : Nat) : ℚ) ≤ d.coefficient := by
      exact_mod_cast hNat
    rw [Nat.cast_pow, ← zpow_natCast, Nat.cast_sub hLength] at hCast
    exact_mod_cast hCast
  have hUnit : (0 : ℚ) < 10 ^ d.exponent := by positivity
  have hLead :
      d.leading = (d.digits.length : Int) - 1 + d.exponent := by
    rw [leading]
    ring
  have hNext :
      d.leading + 1 = (d.digits.length : Int) + d.exponent := by
    rw [leading]
    ring
  rw [hNext, hLead, zpow_add₀ hTen, zpow_add₀ hTen, value]
  exact ⟨mul_le_mul_of_nonneg_right hAbove hUnit.le,
    mul_lt_mul_of_pos_right hBelow hUnit⟩

/- A decimal in the interval of a double has its size. -/
theorem leading_bounds
    (hPos : 0 < x.mantissa)
    (hDigits : 0 < d.coefficient)
    (h : x.Holds d.value) :
    d.leading ≤ 310 ∧ -330 ≤ d.leading := by
  rcases value_bounds hDigits with ⟨hAbove, hBelow⟩
  have hHigh : d.value ≤ 10 ^ (309 : Int) := by
    have hPower : (10 : ℚ) ^ (-309 : Int) ≤ 2 ^ (-1024 : Int) :=
      Binary64.ten_pow_le_two_pow_of_nonpos (by decide) (by decide)
    rw [zpow_neg, zpow_neg] at hPower
    have hInverse :=
      (inv_le_inv₀ (by positivity) (by positivity)).mp hPower
    have hExponent := x.exponent_le
    calc d.value ≤ x.high := h.2.1
      _ ≤ 2 ^ (x.exponent + 53) := le_of_lt x.high_lt
      _ ≤ 2 ^ (1024 : Int) :=
          zpow_le_zpow_right₀ (by norm_num) (by omega)
      _ ≤ 10 ^ (309 : Int) := hInverse
  have hLow : (10 : ℚ) ^ (-330 : Int) ≤ d.value := by
    have hMantissa : (1 : ℚ) ≤ x.mantissa := by
      exact_mod_cast hPos
    have hUnit : (2 : ℚ) ^ (-1074 : Int) ≤ 2 ^ x.exponent :=
      zpow_le_zpow_right₀ (by norm_num) x.exponent_ge
    calc (10 : ℚ) ^ (-330 : Int)
        ≤ 2 ^ (-1075 : Int) :=
          Binary64.ten_pow_le_two_pow_of_nonpos (by decide) (by decide)
      _ = 1 / 2 * 2 ^ (-1074 : Int) := by
          rw [one_div, ← zpow_neg_one, ← zpow_add₀ (by norm_num)]
          rfl
      _ ≤ ((x.mantissa : ℚ) - 1 / 2) * 2 ^ x.exponent := by
          apply mul_le_mul _ hUnit (by positivity)
          · linarith
          · linarith
      _ ≤ x.low := Binary64.half_le_low hPos
      _ ≤ d.value := h.1
  have hTop :=
    (zpow_le_zpow_iff_right₀ (by norm_num)).mp (le_trans hAbove hHigh)
  have hBottom :=
    (zpow_lt_zpow_iff_right₀ (by norm_num)).mp
      (lt_of_le_of_lt hLow hBelow)
  omega

/- Zero is in the interval of no other double. -/
theorem coefficient_pos_of_holds
    (hPos : 0 < x.mantissa)
    (h : x.Holds d.value) :
    0 < d.coefficient := by
  have hUnit : (0 : ℚ) < 2 ^ x.exponent := by positivity
  have hMantissa : (1 : ℚ) ≤ x.mantissa := by
    exact_mod_cast hPos
  have hValue : 0 < d.value := by
    refine lt_of_lt_of_le ?_ (le_trans (Binary64.half_le_low hPos) h.1)
    apply mul_pos _ hUnit
    linarith
  apply Nat.pos_of_ne_zero
  intro hZero
  rw [value, hZero] at hValue
  simp at hValue

/- The quotient that a decimal is rounded from is its value. -/
theorem ratio_eq_value
    (d : Decimal) :
    ((d.coefficient * (powerOfTen d.exponent).1 : Nat) : ℚ)
        / (powerOfTen d.exponent).2 =
      d.value := by
  have hDown := d.scale_pos
  push_cast
  rw [powerOfTen_eq, value]
  field_simp

/- The double nearest to a decimal in its interval. -/
theorem toBinary64?_of_holds
    (negative : Bool)
    (hPos : 0 < x.mantissa)
    (h : x.Holds d.value) :
    d.toBinary64? negative = some (x.withSign negative) := by
  have hDigits := coefficient_pos_of_holds hPos h
  rcases leading_bounds hPos hDigits h with ⟨hTop, hBottom⟩
  rcases powerOfTen_pos d.exponent with ⟨hUp, hDown⟩
  rw [toBinary64?, if_neg (Nat.ne_of_gt hDigits),
    if_neg (by omega), if_neg (by omega)]
  apply Binary64.ofRatio?_of_holds negative hPos
    (Nat.mul_pos hDigits hUp) hDown
  rw [d.ratio_eq_value]
  exact h

end Decimal

------------------------------------------------------------
-- Numerals
------------------------------------------------------------

/- Digits with a mark before them, or nothing for none. -/
def fractionText
    (part : List Char) : List Char :=
  if part.isEmpty then [] else '.' :: part

/- An exponent with its mark and sign. -/
def exponentText
    (e : Int) : List Char :=
  'e' :: (if e < 0 then '-' else '+') :: Nat.toDigits 10 e.natAbs

/- A numeral and the decimal that it shows. -/
inductive Numeral : List Char → Decimal → Prop where
  | plain
      {whole part : List Char}
      (hWhole : Whole (utf8 whole))
      (hDigits : ∀ c ∈ whole ++ part, c.isDigit = true)
      (hPart : part ≠ []) :
      Numeral (whole ++ fractionText part)
        ⟨digitsValue (whole ++ part), -part.length⟩
  | scientific
      {whole part : List Char}
      (e : Int)
      (hWhole : Whole (utf8 whole))
      (hDigits : ∀ c ∈ whole ++ part, c.isDigit = true) :
      Numeral (whole ++ fractionText part ++ exponentText e)
        ⟨digitsValue (whole ++ part), e - part.length⟩

/- Digits are read up to what is no digit. -/
theorem takeWhile_digits
    {ds rest : List Char}
    (hDigits : ∀ c ∈ ds, c.isDigit = true)
    (hRest : ∀ c ∈ rest.head?, c.isDigit = false) :
    (ds ++ rest).takeWhile Char.isDigit = ds ∧
      (ds ++ rest).dropWhile Char.isDigit = rest := by
  rw [List.takeWhile_append_of_pos hDigits,
    List.dropWhile_append_of_pos hDigits]
  cases rest with
  | nil => simp
  | cons c rest =>
      have hFirst := hRest c rfl
      simp [hFirst]

theorem readExponent?_exponentText
    (e : Int) :
    Decimal.readExponent? (exponentText e) = some e := by
  by_cases hSign : e < 0
  · simp [exponentText, Decimal.readExponent?, hSign,
      abs_of_neg hSign]
  · simp [exponentText, Decimal.readExponent?, hSign,
      abs_of_nonneg (le_of_not_gt hSign)]

/- Digits, a fraction or none, and what follows them. -/
theorem read?_parts
    {whole part tail : List Char}
    {e : Int}
    (hWhole : whole ≠ [])
    (hDigits : ∀ c ∈ whole ++ part, c.isDigit = true)
    (hTail : ∀ c ∈ tail.head?, c.isDigit = false ∧ c ≠ '.')
    (hExponent : Decimal.readExponent? tail = some e) :
    Decimal.read? (whole ++ fractionText part ++ tail) =
      some ⟨digitsValue (whole ++ part), e - part.length⟩ := by
  rw [List.forall_mem_append] at hDigits
  have hEnd : ∀ c ∈ tail.head?, c.isDigit = false :=
    fun c hMem => (hTail c hMem).1
  have hNonempty : whole.isEmpty = false := by
    simpa using hWhole
  cases part with
  | nil =>
      have hText : whole ++ fractionText [] ++ tail = whole ++ tail := by
        simp [fractionText]
      rcases takeWhile_digits hDigits.1 hEnd with ⟨hTake, hDrop⟩
      unfold Decimal.read?
      rw [hText, hTake, hDrop]
      dsimp only
      split
      · rename_i ds
        exact absurd rfl (hTail '.' rfl).2
      · simp only [hNonempty, Bool.false_and,
          Bool.false_eq_true, if_false, hExponent]
  | cons p part =>
      have hText :
          whole ++ fractionText (p :: part) ++ tail =
            whole ++ '.' :: (p :: part ++ tail) := by
        simp [fractionText]
      have hPoint :
          ∀ c ∈ ('.' :: (p :: part ++ tail)).head?,
            c.isDigit = false := by
        simp
      rcases takeWhile_digits hDigits.1 hPoint with ⟨hTake, hDrop⟩
      rcases takeWhile_digits hDigits.2 hEnd with ⟨hTake', hDrop'⟩
      unfold Decimal.read?
      rw [hText, hTake, hDrop]
      simp only [hTake', hDrop', hNonempty, Bool.false_and,
        Bool.false_eq_true, if_false, hExponent]

namespace Numeral

variable {cs : List Char} {d : Decimal}

theorem whole_ne_nil
    {whole : List Char}
    (h : Whole (utf8 whole)) :
    whole ≠ [] := by
  intro hEq
  subst hEq
  generalize hBytes : utf8 [] = bytes at h
  cases h with
  | zero => cases hBytes
  | digits hDigits => exact hDigits.1 hBytes.symm

/- A numeral is read as the decimal that it shows. -/
theorem read?_eq
    (h : Numeral cs d) :
    Decimal.read? cs = some d := by
  cases h with
  | @plain whole part hWhole hDigits hPart =>
      have hRead :=
        read?_parts (whole_ne_nil hWhole) hDigits (by simp)
          (rfl : Decimal.readExponent? [] = some 0)
      rw [List.append_nil, Int.zero_sub] at hRead
      exact hRead
  | @scientific whole part e hWhole hDigits =>
      apply read?_parts (whole_ne_nil hWhole) hDigits
      · intro c hMark
        cases hMark
        decide
      · exact readExponent?_exponentText e

/- A fraction of the grammar. -/
theorem fraction_utf8
    {part : List Char}
    (hDigits : ∀ c ∈ part, c.isDigit = true) :
    Fraction (utf8 (fractionText part)) := by
  cases part with
  | nil => exact .none
  | cons c part =>
      have hText : fractionText (c :: part) = '.' :: c :: part := rfl
      rw [hText, utf8_cons_ascii _ (by decide)]
      exact .digits (grammarDigits_utf8 hDigits (by simp))

/- An exponent of the grammar. -/
theorem exponent_utf8
    (e : Int) :
    Exponent (utf8 (exponentText e)) := by
  have hDigits :=
    grammarDigits_utf8 (all_isDigit_toDigits e.natAbs)
      Nat.toDigits_ne_nil
  unfold exponentText
  split
  · rw [utf8_cons_ascii _ (by decide), utf8_cons_ascii _ (by decide)]
    exact .digits (.inl rfl) (.inr (.inr rfl)) hDigits
  · rw [utf8_cons_ascii _ (by decide), utf8_cons_ascii _ (by decide)]
    exact .digits (.inl rfl) (.inr (.inl rfl)) hDigits

/- A numeral, after a sign or not, is a float of the grammar. -/
theorem number
    {sign : List Char}
    (hSign : sign = [] ∨ sign = ['-'])
    (h : Numeral cs d) :
    Number (utf8 (sign ++ cs)) .float := by
  have hSign' : utf8 sign = [] ∨ utf8 sign = [0x2d] := by
    rcases hSign with rfl | rfl
    · exact .inl rfl
    · exact .inr rfl
  cases h with
  | @plain whole part hWhole hDigits hPart =>
      have hNumber :=
        Number.mk hSign' hWhole
          (fraction_utf8 (List.forall_mem_append.mp hDigits).2) .none
      have hPoint : utf8 (fractionText part) ≠ [] := by
        intro hNil
        have hText := utf8_injective (hNil.trans utf8_nil.symm)
        cases part with
        | nil => exact hPart rfl
        | cons c part => cases hText
      simpa [hPoint, List.append_assoc] using hNumber
  | @scientific whole part e hWhole hDigits =>
      have hNumber :=
        Number.mk hSign' hWhole
          (fraction_utf8 (List.forall_mem_append.mp hDigits).2)
          (exponent_utf8 e)
      have hMark : utf8 (exponentText e) ≠ [] := by
        intro hNil
        have hText := utf8_injective (hNil.trans utf8_nil.symm)
        cases hText
      simpa [hMark, List.append_assoc] using hNumber

end Numeral

------------------------------------------------------------
-- Writing
------------------------------------------------------------

namespace Decimal

variable {d : Decimal}

theorem all_isDigit_digits
    (d : Decimal) :
    ∀ c ∈ d.digits, c.isDigit = true :=
  all_isDigit_toDigits d.coefficient

theorem digitsValue_digits
    (d : Decimal) :
    digitsValue d.digits = d.coefficient :=
  digitsValue_toDigits d.coefficient

/- Digits that start like those of a positive decimal. -/
theorem whole_take
    {n : Nat}
    (hPos : 0 < d.coefficient)
    (rest : List Char)
    (hRest : ∀ c ∈ rest, c.isDigit = true) :
    Whole (utf8 (d.digits.take (n + 1) ++ rest)) := by
  have hFirst := head?_toDigits_ne_zero hPos
  have hDigits := d.all_isDigit_digits
  rw [← digits] at hFirst
  cases hList : d.digits with
  | nil => exact absurd hList Nat.toDigits_ne_nil
  | cons c cs =>
      rw [hList] at hFirst hDigits
      apply whole_utf8
      · rw [List.forall_mem_append]
        exact ⟨fun c hMem => hDigits c (List.mem_of_mem_take hMem),
          hRest⟩
      · simp
      · exact hFirst

theorem all_isDigit_zeros
    (n : Nat) :
    ∀ c ∈ List.replicate n '0', c.isDigit = true := by
  intro c hMem
  rw [(List.mem_replicate.mp hMem).2]
  rfl

/- Plain notation below one. -/
theorem numeral_small
    (hSmall : d.leading < 0) :
    Numeral d.plain d := by
  have hLength : 0 < d.digits.length := Nat.length_toDigits_pos
  generalize hZeros : (-d.leading - 1).toNat = zeros
  have hNil : List.replicate zeros '0' ++ d.digits ≠ [] := by
    simp [digits]
  have hDigits :
      ∀ c ∈ ['0'] ++ (List.replicate zeros '0' ++ d.digits),
        c.isDigit = true := by
    rw [List.forall_mem_append, List.forall_mem_append]
    exact ⟨List.forall_mem_singleton.mpr rfl,
      all_isDigit_zeros zeros, d.all_isDigit_digits⟩
  have hWhole : Whole (utf8 ['0']) := .zero
  have hNumeral := Numeral.plain hWhole hDigits hNil
  have hText :
      ['0'] ++ fractionText (List.replicate zeros '0' ++ d.digits) =
        d.plain := by
    simp [plain, if_pos hSmall, hZeros, fractionText, hNil]
  have hValue :
      digitsValue (['0'] ++ (List.replicate zeros '0' ++ d.digits)) =
        d.coefficient := by
    rw [← List.append_assoc, List.singleton_append,
      ← List.replicate_succ, digitsValue_append,
      digitsValue_replicate_zero, digitsValue_digits,
      Nat.mul_zero, Nat.zero_add]
  have hExponent :
      -((List.replicate zeros '0' ++ d.digits).length : Int) =
        d.exponent := by
    rw [List.length_append, List.length_replicate]
    unfold leading at hSmall hZeros
    omega
  rw [hText, hValue, hExponent] at hNumeral
  exact hNumeral

/- Plain notation with zeros before the point. -/
theorem numeral_whole
    (hPos : 0 < d.coefficient)
    (hLarge : 0 ≤ d.leading)
    (hLength : d.digits.length ≤ d.leading.toNat + 1) :
    ∃ d', Numeral d.plain d' ∧ d'.value = d.value := by
  generalize hCount : d.leading.toNat + 1 - d.digits.length = zeros
  have hText :
      d.digits.take (d.leading.toNat + 1)
          ++ List.replicate zeros '0' ++ fractionText ['0'] =
        d.plain := by
    simp [plain, if_neg (not_lt.mpr hLarge), hCount, fractionText,
      List.drop_eq_nil_of_le hLength]
  have hDigits :
      ∀ c ∈ d.digits.take (d.leading.toNat + 1)
          ++ List.replicate zeros '0' ++ ['0'], c.isDigit = true := by
    rw [List.forall_mem_append, List.forall_mem_append]
    exact ⟨⟨fun c hMem =>
        d.all_isDigit_digits c (List.mem_of_mem_take hMem),
      all_isDigit_zeros zeros⟩, List.forall_mem_singleton.mpr rfl⟩
  have hNumeral :=
    Numeral.plain (whole_take hPos _ (all_isDigit_zeros zeros))
      hDigits (by simp)
  rw [hText] at hNumeral
  refine ⟨_, hNumeral, ?_⟩
  have hValue :
      digitsValue (d.digits.take (d.leading.toNat + 1)
          ++ List.replicate zeros '0' ++ ['0']) =
        10 ^ (zeros + 1) * d.coefficient := by
    rw [List.take_of_length_le hLength, List.append_assoc,
      ← List.replicate_succ', digitsValue_append,
      digitsValue_replicate_zero, digitsValue_digits,
      List.length_replicate, Nat.add_zero]
  have hExponent : d.exponent = zeros := by
    unfold leading at hLarge hLength hCount
    omega
  rw [value, value, hValue, hExponent]
  push_cast
  rw [zpow_natCast, zpow_neg, pow_succ]
  field_simp
  simp

/- Plain notation with digits after the point. -/
theorem numeral_mixed
    (hPos : 0 < d.coefficient)
    (hLarge : 0 ≤ d.leading)
    (hLength : d.leading.toNat + 1 < d.digits.length) :
    Numeral d.plain d := by
  have hNil : d.digits.drop (d.leading.toNat + 1) ≠ [] := by
    rw [Ne, List.drop_eq_nil_iff]
    omega
  have hNone : d.leading.toNat + 1 - d.digits.length = 0 := by
    omega
  have hText :
      d.digits.take (d.leading.toNat + 1)
          ++ fractionText (d.digits.drop (d.leading.toNat + 1)) =
        d.plain := by
    simp [plain, if_neg (not_lt.mpr hLarge), hNone, fractionText,
      hNil]
  have hDigits :
      ∀ c ∈ d.digits.take (d.leading.toNat + 1)
          ++ d.digits.drop (d.leading.toNat + 1),
        c.isDigit = true := by
    rw [List.take_append_drop]
    exact d.all_isDigit_digits
  have hWhole := whole_take hPos (n := d.leading.toNat) [] nofun
  rw [List.append_nil] at hWhole
  have hNumeral := Numeral.plain hWhole hDigits hNil
  have hExponent :
      -((d.digits.drop (d.leading.toNat + 1)).length : Int) =
        d.exponent := by
    rw [List.length_drop]
    unfold leading at hLarge hLength ⊢
    omega
  rw [hText, List.take_append_drop, digitsValue_digits,
    hExponent] at hNumeral
  exact hNumeral

/- Exponent notation. -/
theorem numeral_scientific
    (hPos : 0 < d.coefficient) :
    Numeral d.scientific d := by
  have hLength : 0 < d.digits.length := Nat.length_toDigits_pos
  have hText :
      d.digits.take 1 ++ fractionText (d.digits.drop 1)
          ++ exponentText d.leading =
        d.scientific := by
    simp [scientific, fractionText, exponentText]
  have hDigits :
      ∀ c ∈ d.digits.take 1 ++ d.digits.drop 1,
        c.isDigit = true := by
    rw [List.take_append_drop]
    exact d.all_isDigit_digits
  have hWhole := whole_take hPos (n := 0) [] nofun
  rw [List.append_nil] at hWhole
  have hNumeral := Numeral.scientific d.leading hWhole hDigits
  have hExponent :
      d.leading - ((d.digits.drop 1).length : Int) = d.exponent := by
    rw [List.length_drop]
    unfold leading
    omega
  rw [hText, List.take_append_drop, digitsValue_digits,
    hExponent] at hNumeral
  exact hNumeral

/- A decimal is written as a numeral of the same value. -/
theorem exists_numeral
    (layout : FloatLayout)
    (hPos : 0 < d.coefficient) :
    ∃ d', Numeral (d.write layout) d' ∧ d'.value = d.value := by
  unfold write
  split
  · by_cases hSmall : d.leading < 0
    · exact ⟨d, numeral_small hSmall, rfl⟩
    · by_cases hLength : d.digits.length ≤ d.leading.toNat + 1
      · exact numeral_whole hPos (not_lt.mp hSmall) hLength
      · exact ⟨d, numeral_mixed hPos (not_lt.mp hSmall)
          (not_le.mp hLength), rfl⟩
  · exact ⟨d, numeral_scientific hPos, rfl⟩

end Decimal

------------------------------------------------------------
-- Texts of Doubles
------------------------------------------------------------

namespace Binary64

/- A zero is one of the two zeros. -/
theorem eq_zero_of_isZero
    {x : Binary64}
    (h : x.isZero = true) :
    x = zero x.negative := by
  rcases x with ⟨negative, mantissa, exponent, hLt, hGe, hLe, hNormal⟩
  have hMantissa : mantissa = 0 := by
    simpa [isZero] using h
  subst hMantissa
  have hExponent := hNormal (by decide)
  subst hExponent
  rfl

/- The characters of a double are a sign and a numeral. -/
theorem exists_numeral
    (x : Binary64) :
    ∃ cs d,
      x.text.toList = (if x.negative then ['-'] else []) ++ cs ∧
        Numeral cs d ∧
        d.toBinary64? x.negative = some x := by
  have hText :
      ∀ body : List Char,
        (String.ofList
            (if x.negative then '-' :: body else body)).toList =
          (if x.negative then ['-'] else []) ++ body := by
    intro body
    cases x.negative <;> simp
  unfold text
  by_cases hZero : x.isZero = true
  · have hDigits : ∀ c ∈ ['0'] ++ ['0'], c.isDigit = true :=
      Decimal.all_isDigit_zeros 2
    have hWhole : Whole (utf8 ['0']) := .zero
    have hNumeral := Numeral.plain hWhole hDigits (by simp)
    refine ⟨_, _, ?_, hNumeral, ?_⟩
    · rw [hText, if_pos hZero]
      rfl
    · rw [eq_zero_of_isZero hZero]
      rfl
  · have hPos : 0 < x.mantissa := by
      apply Nat.pos_of_ne_zero
      simpa [isZero] using hZero
    have hHolds := shortest_holds hPos
    have hDigits := Decimal.coefficient_pos_of_holds hPos hHolds
    rcases x.shortest.exists_numeral floatLayout hDigits with
      ⟨d, hNumeral, hValue⟩
    refine ⟨_, d, ?_, hNumeral, ?_⟩
    · rw [hText, if_neg hZero]
    · rw [← hValue] at hHolds
      rw [Decimal.toBinary64?_of_holds x.negative hPos hHolds]
      rfl

end Binary64

/- A sign or none, and a decimal, which starts with no sign. -/
theorem readFloat?_signed
    {text : String}
    {cs : List Char}
    {d : Decimal}
    (negative : Bool)
    (hText : text.toList = (if negative then ['-'] else []) ++ cs)
    (hRead : Decimal.read? cs = some d) :
    readFloat? text = d.toBinary64? negative := by
  rw [readFloat?, hText]
  cases negative with
  | true => simp [hRead]
  | false =>
      cases cs with
      | nil => cases hRead
      | cons c rest =>
          have hMinus : c ≠ '-' := by
            intro hEq
            subst hEq
            cases hRead
          have hPlus : c ≠ '+' := by
            intro hEq
            subst hEq
            cases hRead
          simp [hMinus, hPlus, hRead]

/- The text of a double is read as the double. -/
theorem readFloat?_text
    (x : Binary64) :
    readFloat? x.text = some x := by
  rcases x.exists_numeral with ⟨cs, d, hText, hNumeral, hDouble⟩
  rw [readFloat?_signed x.negative hText hNumeral.read?_eq, hDouble]

/- The text of a double is a float of the grammar. -/
theorem number_text
    (x : Binary64) :
    Number (utf8 x.text.toList) .float := by
  rcases x.exists_numeral with ⟨cs, d, hText, hNumeral, _⟩
  rw [hText]
  apply hNumeral.number
  split
  · exact .inr rfl
  · exact .inl rfl

end TreeWire
