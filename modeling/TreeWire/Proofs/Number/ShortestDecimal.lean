import Mathlib.Tactic.NormNum
import TreeWire.Proofs.Number.Rounding

/-
  The shortest decimal of a double reads back as the double.

  A decimal reads back exactly when the interval of the double
  holds it.  On the grid of seventeen digits a step is less than
  a unit of the mantissa, and less than half a unit where the
  doubles below lie twice as close.  So one of the neighbours of
  the double on that grid is in its interval, and the search ends
  there at the latest.

  Key definitions include:
    * `Decimal.value`

  Main statements:
    * `Binary64.readsBack_iff`
    * `Binary64.ten_pow_leadingExponent_le`
    * `Binary64.exists_onGrid?`
    * `Binary64.shortest_holds`
-/

namespace TreeWire

------------------------------------------------------------
-- Decimals and Quotients
------------------------------------------------------------

namespace Decimal

/- The number that a decimal stands for. -/
def value
    (d : Decimal) : ℚ :=
  d.coefficient * 10 ^ d.exponent

theorem scale_pos
    (d : Decimal) :
    (0 : ℚ) < (powerOfTen d.exponent).2 := by
  exact_mod_cast (powerOfTen_pos d.exponent).2

/- Both sides of a comparison, brought to natural numbers. -/
theorem cast_scaled
    (d : Decimal)
    (den : Nat) :
    ((d.coefficient * (powerOfTen d.exponent).1 * den : Nat) : ℚ) =
      d.value * den * (powerOfTen d.exponent).2 := by
  push_cast
  rw [powerOfTen_eq, value]
  ring

theorem leRatio_iff
    (d : Decimal)
    (num : Nat)
    {den : Nat}
    (hDen : 0 < den) :
    d.leRatio num den = true ↔ d.value ≤ (num : ℚ) / den := by
  have hDen' : (0 : ℚ) < den := by exact_mod_cast hDen
  unfold leRatio
  rw [decide_eq_true_iff, ← Nat.cast_le (α := ℚ), d.cast_scaled,
    Nat.cast_mul, mul_le_mul_iff_left₀ d.scale_pos, le_div_iff₀ hDen']

theorem geRatio_iff
    (d : Decimal)
    (num : Nat)
    {den : Nat}
    (hDen : 0 < den) :
    d.geRatio num den = true ↔ (num : ℚ) / den ≤ d.value := by
  have hDen' : (0 : ℚ) < den := by exact_mod_cast hDen
  unfold geRatio
  rw [decide_eq_true_iff, ← Nat.cast_le (α := ℚ), d.cast_scaled,
    Nat.cast_mul, mul_le_mul_iff_left₀ d.scale_pos, div_le_iff₀ hDen']

/- Zeros at the end do not count. -/
theorem value_trimZeros
    (d : Decimal)
    (fuel : Nat) :
    (d.trimZeros fuel).value = d.value := by
  induction fuel generalizing d with
  | zero => rfl
  | succ fuel ih =>
      rw [trimZeros]
      split
      · rename_i hTrim
        have hTens : d.coefficient = 10 * (d.coefficient / 10) := by
          omega
        have hCast :
            (d.coefficient : ℚ) = 10 * (d.coefficient / 10 : Nat) := by
          exact_mod_cast hTens
        rw [ih, value, value, hCast, zpow_add_one₀ (by norm_num)]
        ring
      · rfl

end Decimal

namespace Binary64

variable {x : Binary64} {d : Decimal}

------------------------------------------------------------
-- Reading Back
------------------------------------------------------------

theorem quarters_eq
    (x : Binary64)
    (n : Nat) :
    0 < (x.quarters n).2 ∧
      ((x.quarters n).1 : ℚ) / (x.quarters n).2 =
        (n : ℚ) / 4 * 2 ^ x.exponent := by
  have hPos := (powerOfTwo_pos (x.exponent - 2)).2
  have hDown : ((powerOfTwo (x.exponent - 2)).2 : ℚ) ≠ 0 := by
    exact_mod_cast Nat.ne_of_gt hPos
  refine ⟨hPos, ?_⟩
  simp only [quarters]
  push_cast
  rw [powerOfTwo_eq, zpow_sub₀ (by norm_num)]
  field_simp
  norm_num

/- A decimal reads back where the interval holds it. -/
theorem readsBack_iff :
    x.readsBack d = true ↔ x.Holds d.value := by
  rcases x.quarters_eq x.interval.1 with ⟨hLowPos, hLow⟩
  rcases x.quarters_eq x.interval.2 with ⟨hHighPos, hHigh⟩
  have hGeLow := d.geRatio_iff (x.quarters x.interval.1).1 hLowPos
  have hLeLow := d.leRatio_iff (x.quarters x.interval.1).1 hLowPos
  have hGeHigh := d.geRatio_iff (x.quarters x.interval.2).1 hHighPos
  have hLeHigh := d.leRatio_iff (x.quarters x.interval.2).1 hHighPos
  rw [hLow, ← low] at hGeLow hLeLow
  rw [hHigh, ← high] at hGeHigh hLeHigh
  unfold readsBack Holds
  dsimp only
  rcases Nat.mod_two_eq_zero_or_one x.mantissa with hEven | hOdd
  · rw [if_pos hEven, Bool.and_eq_true, hGeLow, hLeHigh]
    simp [hEven]
  · rw [if_neg (by omega)]
    simp only [Bool.and_eq_true, Bool.not_eq_true',
      ← Bool.not_eq_true, hGeLow, hLeHigh, hLeLow, hGeHigh, hOdd,
      true_implies, not_le]
    rw [and_assoc, and_assoc]

------------------------------------------------------------
-- The First Digit
------------------------------------------------------------

/-
  Powers of ten and of two are compared by common powers of
  theirs.
-/
theorem ten_pow_le_two_pow
    {s b : Int}
    {k l : Nat}
    (hPos : 0 < k)
    (hPowers : ((10 : ℚ) ^ l) ^ b ≤ ((2 : ℚ) ^ k) ^ b)
    (h : k * s ≤ l * b) :
    (10 : ℚ) ^ s ≤ 2 ^ b := by
  apply le_of_pow_le_pow_left₀ (Nat.ne_of_gt hPos) (by positivity)
  calc ((10 : ℚ) ^ s) ^ k
      = 10 ^ ((k : Int) * s) := by
        rw [mul_comm, zpow_mul, zpow_natCast]
    _ ≤ 10 ^ ((l : Int) * b) :=
        zpow_le_zpow_right₀ (by norm_num) h
    _ = ((10 : ℚ) ^ l) ^ b := by
        rw [zpow_mul, zpow_natCast]
    _ ≤ ((2 : ℚ) ^ k) ^ b := hPowers
    _ = (2 ^ b) ^ k := by
        rw [← zpow_natCast, ← zpow_natCast, ← zpow_mul,
          ← zpow_mul, mul_comm]

/- Below one, 28 digits are as good as 93 bits. -/
theorem ten_pow_le_two_pow_of_nonpos
    {s b : Int}
    (hSign : b ≤ 0)
    (h : 93 * s ≤ 28 * b) :
    (10 : ℚ) ^ s ≤ 2 ^ b := by
  rcases (⟨-b, by omega⟩ : ∃ n : Int, b = -n) with ⟨n, rfl⟩
  apply ten_pow_le_two_pow (k := 93) (l := 28) (by decide)
  · rw [zpow_neg, zpow_neg]
    apply inv_anti₀ (by positivity)
    exact zpow_le_zpow_left₀ (by omega) (by positivity)
      (by norm_num)
  · exact_mod_cast h

/-
  Where the search for the first digit starts.  The factor is a
  little more than the logarithm of two, so it is too great from
  one on; there 59 digits are as good as 196 bits.
-/
theorem ten_pow_start_le
    {bits : Int}
    (hLow : -2000 ≤ bits)
    (hHigh : bits ≤ 2000) :
    (10 : ℚ) ^ ((bits * 30103).fdiv 100000 - 1) ≤ 2 ^ bits := by
  rw [Int.fdiv_eq_ediv_of_nonneg _ (by decide)]
  by_cases hSign : 0 ≤ bits
  · apply ten_pow_le_two_pow (k := 196) (l := 59) (by decide)
    · exact zpow_le_zpow_left₀ hSign (by positivity) (by norm_num)
    · push_cast
      omega
  · exact ten_pow_le_two_pow_of_nonpos (by omega) (by omega)

/- The power of the first digit of a quotient is not greater. -/
theorem ten_pow_leadingExponent_le
    {num den : Nat}
    (hNum : 0 < num)
    (hDen : 0 < den)
    (hLow : -2000 ≤ (num.log2 : Int) - den.log2 - 1)
    (hHigh : (num.log2 : Int) - den.log2 - 1 ≤ 2000) :
    (10 : ℚ) ^ leadingExponent num den ≤ (num : ℚ) / den := by
  have hClimb :
      ∀ e : Int, (10 : ℚ) ^ e ≤ (num : ℚ) / den →
        (10 : ℚ) ^
            (if Decimal.leRatio ⟨1, e + 1⟩ num den then e + 1
              else e) ≤
          (num : ℚ) / den := by
    intro e hAt
    split
    · rename_i hNext
      simpa [Decimal.leRatio_iff _ _ hDen, Decimal.value] using hNext
    · exact hAt
  have hStart :=
    le_trans (ten_pow_start_le hLow hHigh)
      (le_of_lt (ratio_bounds hNum hDen).1)
  unfold leadingExponent
  exact hClimb _ (hClimb _ (hClimb _ hStart))

------------------------------------------------------------
-- The Grid
------------------------------------------------------------

theorem toRatio_eq
    (x : Binary64) :
    0 < x.toRatio.2 ∧
      (x.toRatio.1 : ℚ) / x.toRatio.2 = x.value := by
  have hPos := (powerOfTwo_pos x.exponent).2
  have hDown : ((powerOfTwo x.exponent).2 : ℚ) ≠ 0 := by
    exact_mod_cast Nat.ne_of_gt hPos
  refine ⟨hPos, ?_⟩
  simp only [toRatio]
  push_cast
  rw [powerOfTwo_eq, value]
  field_simp

/- What is found on a grid reads back. -/
theorem readsBack_of_onGrid?
    {e : Int}
    (h : x.onGrid? e = some d) :
    x.readsBack d = true := by
  unfold onGrid? at h
  dsimp only at h
  split at h
  · rename_i hLow hHigh
    split_ifs at h
    · cases h
      exact hLow
    · cases h
      exact hHigh
    · cases h
      exact hLow
    · cases h
      exact hHigh
  · rename_i hLow _
    cases h
    exact hLow
  · rename_i _ hHigh
    cases h
    exact hHigh
  · cases h

/- The number of grid steps below a double. -/
def stepsBelow
    (x : Binary64)
    (e : Int) : Nat :=
  x.toRatio.1 * (Decimal.powerOfTen e).2
    / (x.toRatio.2 * (Decimal.powerOfTen e).1)

/- A double lies between its neighbours on a grid. -/
theorem neighbours
    (x : Binary64)
    (e : Int) :
    (x.stepsBelow e : ℚ) * 10 ^ e ≤ x.value ∧
      x.value < ((x.stepsBelow e : ℚ) + 1) * 10 ^ e := by
  rcases x.toRatio_eq with ⟨hDen, hValue⟩
  rcases Decimal.powerOfTen_pos e with ⟨hUp, hDown⟩
  rcases common_denominator x.toRatio.1 hDen hDown
    (Decimal.powerOfTen_eq e) with ⟨hScale, hNum, hStep⟩
  rw [hValue] at hNum
  have hPos : 0 < x.toRatio.2 * (Decimal.powerOfTen e).1 :=
    Nat.mul_pos hDen hUp
  unfold stepsBelow
  generalize x.toRatio.1 * (Decimal.powerOfTen e).2 = a at *
  generalize x.toRatio.2 * (Decimal.powerOfTen e).1 = b at *
  generalize (x.toRatio.2 : ℚ) * (Decimal.powerOfTen e).2 = c at *
  have hFloor : ((a / b : Nat) : ℚ) * b ≤ a := by
    exact_mod_cast Nat.div_mul_le_self a b
  have hCeil : (a : ℚ) < (((a / b : Nat) : ℚ) + 1) * b := by
    exact_mod_cast Nat.lt_mul_of_div_lt (Nat.lt_succ_self _) hPos
  rw [hNum, hStep, ← mul_assoc] at hFloor hCeil
  exact ⟨le_of_mul_le_mul_right hFloor hScale,
    lt_of_mul_lt_mul_right hCeil hScale.le⟩

theorem holds_of_lt
    {q : ℚ}
    (hLow : x.low < q)
    (hHigh : q < x.high) :
    x.Holds q :=
  ⟨le_of_lt hLow, le_of_lt hHigh, fun _ => ⟨hLow, hHigh⟩⟩

/-
  On a grid of seventeen digits, one of the neighbours of a
  double is in its interval.
-/
theorem holds_neighbour
    {e : Int}
    (hPos : 0 < x.mantissa)
    (hFine : (10 : ℚ) ^ e * 10 ^ 16 ≤ x.value) :
    x.Holds ((x.stepsBelow e : ℚ) * 10 ^ e) ∨
      x.Holds (((x.stepsBelow e : ℚ) + 1) * 10 ^ e) := by
  rcases x.neighbours e with ⟨hBelow, hAbove⟩
  have hUnit : (0 : ℚ) < 2 ^ x.exponent := by positivity
  have hHigh := x.high_eq
  rw [value] at hBelow hAbove hFine
  rw [add_mul, one_mul] at hAbove ⊢
  by_cases hNarrow : x.mantissa = 0x10000000000000 ∧ -1074 < x.exponent
  · -- A step is less than half a unit, so the upper one is near.
    have hLow := low_eq_of_narrow hNarrow
    have hMantissa : (x.mantissa : ℚ) = 2 ^ 52 := by
      exact_mod_cast hNarrow.1
    rw [hMantissa] at hBelow hAbove hFine hHigh
    right
    apply holds_of_lt
    · rw [hLow]
      linarith
    · rw [hHigh]
      linarith
  · -- A step is less than a unit, so the nearer one is near.
    have hLow := low_eq_of_wide hPos hNarrow
    have hMantissa : (x.mantissa : ℚ) + 1 ≤ 2 ^ 53 := by
      exact_mod_cast x.mantissa_lt
    have hStep : (10 : ℚ) ^ e < 2 ^ x.exponent := by
      have hMul := mul_le_mul_of_nonneg_right hMantissa hUnit.le
      linarith
    by_cases hNear :
        (x.mantissa : ℚ) * 2 ^ x.exponent -
            (x.stepsBelow e : ℚ) * 10 ^ e <
          2 ^ x.exponent / 2
    · left
      apply holds_of_lt
      · rw [hLow]
        linarith
      · rw [hHigh]
        linarith
    · right
      apply holds_of_lt
      · rw [hLow]
        linarith
      · rw [hHigh]
        linarith

theorem exists_onGrid?
    {e : Int}
    (hPos : 0 < x.mantissa)
    (hFine : (10 : ℚ) ^ e * 10 ^ 16 ≤ x.value) :
    ∃ d, x.onGrid? e = some d := by
  have hEither :
      x.readsBack ⟨x.stepsBelow e, e⟩ = true ∨
        x.readsBack ⟨x.stepsBelow e + 1, e⟩ = true := by
    rw [readsBack_iff, readsBack_iff, Decimal.value, Decimal.value]
    push_cast
    exact holds_neighbour hPos hFine
  unfold onGrid?
  dsimp only
  rw [← stepsBelow]
  split
  · split_ifs
    · exact ⟨_, rfl⟩
    · exact ⟨_, rfl⟩
    · exact ⟨_, rfl⟩
    · exact ⟨_, rfl⟩
  · exact ⟨_, rfl⟩
  · exact ⟨_, rfl⟩
  · rename_i hLow hHigh
    rw [hLow, hHigh] at hEither
    simp at hEither

------------------------------------------------------------
-- The Search
------------------------------------------------------------

/- The search ends on a grid that has a neighbour. -/
theorem readsBack_search
    {e : Int}
    {tries k : Nat}
    (hTries : k < tries)
    (h : ∃ d, x.onGrid? (e - k) = some d) :
    x.readsBack (search x e tries) = true := by
  induction tries generalizing e k with
  | zero => exact absurd hTries (Nat.not_lt_zero k)
  | succ tries ih =>
      rw [search]
      cases hGrid : x.onGrid? e with
      | some d => exact readsBack_of_onGrid? hGrid
      | none =>
          cases k with
          | zero =>
              rcases h with ⟨d, hFound⟩
              rw [Nat.cast_zero, Int.sub_zero, hGrid] at hFound
              cases hFound
          | succ k =>
              apply ih (Nat.lt_of_succ_lt_succ hTries)
              have hNext : e - 1 - k = e - (k + 1 : Nat) := by
                push_cast
                ring
              rw [hNext]
              exact h

/- The quotient of a double is not too long for the search. -/
theorem toRatio_log2
    (x : Binary64) :
    x.toRatio.1.log2 ≤ 1024 ∧ x.toRatio.2.log2 ≤ 1074 := by
  have hMantissa : x.mantissa < 2 ^ 53 := x.mantissa_lt
  have hLeast := x.exponent_ge
  have hGreatest := x.exponent_le
  have hBits : ∀ {n k : Nat}, n < 2 ^ k → n.log2 ≤ k := by
    intro n k hLt
    by_cases hZero : n = 0
    · simp [hZero]
    · exact Nat.le_of_lt ((Nat.log2_lt hZero).mpr hLt)
  by_cases hSign : 0 ≤ x.exponent
  · have hNum :
        x.mantissa * 2 ^ x.exponent.toNat <
          2 ^ (53 + x.exponent.toNat) := by
      rw [Nat.pow_add]
      exact Nat.mul_lt_mul_of_pos_right hMantissa (by positivity)
    have := hBits hNum
    simp only [toRatio, powerOfTwo, if_pos hSign, Nat.pow_eq]
    exact ⟨by omega, by decide⟩
  · have := hBits hMantissa
    simp only [toRatio, powerOfTwo, if_neg hSign, Nat.mul_one,
      Nat.pow_eq, Nat.log2_two_pow]
    omega

/- The shortest decimal of a double is in its interval. -/
theorem shortest_holds
    (hPos : 0 < x.mantissa) :
    x.Holds x.shortest.value := by
  rcases x.toRatio_eq with ⟨hDen, hValue⟩
  rcases x.toRatio_log2 with ⟨hNumBits, hDenBits⟩
  have hNum : 0 < x.toRatio.1 :=
    Nat.mul_pos hPos (powerOfTwo_pos x.exponent).1
  have hLead :=
    ten_pow_leadingExponent_le hNum hDen (by omega) (by omega)
  rw [hValue] at hLead
  have hGrid :
      ∃ d, x.onGrid?
        (leadingExponent x.toRatio.1 x.toRatio.2 - (16 : Nat)) =
          some d := by
    apply exists_onGrid? hPos
    refine le_trans (le_of_eq ?_) hLead
    rw [← zpow_natCast (10 : ℚ) 16, ← zpow_add₀ (by norm_num)]
    congr 1
    push_cast
    ring
  have hSearch := readsBack_search (by decide : 16 < 17) hGrid
  rw [readsBack_iff] at hSearch
  unfold shortest
  rw [Decimal.value_trimZeros]
  exact hSearch

end Binary64

end TreeWire
