import Mathlib.Algebra.Order.Field.Power
import Mathlib.Algebra.Order.Field.Rat
import Mathlib.Data.Rat.Cast.Order
import Mathlib.Tactic.FieldSimp
import Mathlib.Tactic.Linarith
import Mathlib.Tactic.Positivity
import Mathlib.Tactic.Ring
import TreeWire.Number.Shortest

/-
  Rounding a quotient to a double.

  The rationals that a double holds are those between the ends of
  its interval; the ends belong to it when its mantissa is even.
  Every quotient in that interval is rounded to the double.

  Key definitions include:
    * `Binary64.value`
    * `Binary64.Holds`

  Main statements:
    * `roundHalfEven_eq`
    * `Binary64.exponentOf_spec`
    * `Binary64.ofRatio?_of_holds`
-/

namespace TreeWire

------------------------------------------------------------
-- Rounded Quotients
------------------------------------------------------------

/-
  A natural number at most half a unit off a quotient is the
  rounded one; at exactly half a unit only if it is even.
-/
theorem roundHalfEven_eq
    {num den m : Nat}
    (hDen : 0 < den)
    (hLow : 2 * (m * den) ≤ 2 * num + den)
    (hHigh : 2 * num ≤ 2 * (m * den) + den)
    (hOdd :
      m % 2 = 1 →
        2 * (m * den) < 2 * num + den ∧
          2 * num < 2 * (m * den) + den) :
    roundHalfEven num den = m := by
  have hNum : den * (num / den) + num % den = num :=
    Nat.div_add_mod num den
  have hRest : num % den < den := Nat.mod_lt num hDen
  unfold roundHalfEven
  generalize num / den = q at *
  generalize num % den = r at *
  have hBelow : q ≤ m := by
    by_contra hLt
    have hMul := Nat.mul_le_mul_left den (Nat.succ_le_of_lt
      (Nat.lt_of_not_le hLt))
    rw [Nat.mul_succ, Nat.mul_comm den m] at hMul
    omega
  have hAbove : m ≤ q + 1 := by
    by_contra hLt
    have hMul := Nat.mul_le_mul_left den (Nat.succ_le_of_lt
      (Nat.lt_of_not_le hLt))
    rw [Nat.mul_succ, Nat.mul_succ, Nat.mul_comm den m] at hMul
    omega
  rcases Nat.eq_or_lt_of_le hBelow with rfl | hLt
  · rw [Nat.mul_comm q den] at hLow hHigh hOdd
    dsimp only
    split_ifs <;> omega
  · have hEq : m = q + 1 := by omega
    subst hEq
    rw [Nat.add_mul, Nat.one_mul, Nat.mul_comm q den] at hLow hHigh hOdd
    dsimp only
    split_ifs <;> omega

------------------------------------------------------------
-- Powers as Quotients
------------------------------------------------------------

/- A power of a base, with its sign put on either side. -/
theorem power_eq
    {base : Nat}
    (hBase : 0 < base)
    (e : Int) :
    ((if 0 ≤ e then (base ^ e.toNat, 1)
        else (1, base ^ (-e).toNat) : Nat × Nat).1 : ℚ) =
      (base : ℚ) ^ e *
        ((if 0 ≤ e then (base ^ e.toNat, 1)
          else (1, base ^ (-e).toNat) : Nat × Nat).2 : ℚ) := by
  have hNe : (base : ℚ) ≠ 0 := by positivity
  split
  · rename_i h
    have hPow : (base : ℚ) ^ e = (base : ℚ) ^ e.toNat := by
      rw [← zpow_natCast, Int.toNat_of_nonneg h]
    simp [hPow]
  · rename_i h
    have hPow :
        (base : ℚ) ^ (-e).toNat = ((base : ℚ) ^ e)⁻¹ := by
      rw [← zpow_natCast, Int.toNat_of_nonneg (by omega), zpow_neg]
    simp only [Nat.cast_one, Nat.cast_pow, hPow]
    field_simp

/- A quotient and a power `up / down`, over a common denominator. -/
theorem common_denominator
    (num : Nat)
    {den up down : Nat}
    {power : ℚ}
    (hDen : 0 < den)
    (hDown : 0 < down)
    (hPower : (up : ℚ) = power * down) :
    (0 : ℚ) < den * down ∧
      ((num * down : Nat) : ℚ) = (num : ℚ) / den * (den * down) ∧
      ((den * up : Nat) : ℚ) = power * (den * down) := by
  have hDen' : (0 : ℚ) < den := by exact_mod_cast hDen
  have hDown' : (0 : ℚ) < down := by exact_mod_cast hDown
  refine ⟨mul_pos hDen' hDown', ?_, ?_⟩
  · push_cast
    field_simp
  · push_cast
    rw [hPower]
    ring

namespace Binary64

theorem powerOfTwo_pos
    (e : Int) :
    0 < (powerOfTwo e).1 ∧ 0 < (powerOfTwo e).2 := by
  unfold powerOfTwo
  split <;> simp

theorem powerOfTwo_eq
    (e : Int) :
    ((powerOfTwo e).1 : ℚ) = 2 ^ e * ((powerOfTwo e).2 : ℚ) :=
  power_eq (by decide : 0 < 2) e

/- Comparing a quotient with a power of two. -/
theorem lt_powerOfTwo_iff
    (num : Nat)
    {den : Nat}
    (hDen : 0 < den)
    (e : Int) :
    num * (powerOfTwo e).2 < den * (powerOfTwo e).1 ↔
      (num : ℚ) / den < 2 ^ e := by
  have hDown : (0 : ℚ) < (powerOfTwo e).2 := by
    exact_mod_cast (powerOfTwo_pos e).2
  have hDen' : (0 : ℚ) < den := by exact_mod_cast hDen
  rw [← Nat.cast_lt (α := ℚ), Nat.cast_mul, Nat.cast_mul,
    powerOfTwo_eq, div_lt_iff₀ hDen', ← mul_assoc,
    mul_lt_mul_iff_left₀ hDown, mul_comm (den : ℚ)]

end Binary64

namespace Decimal

theorem powerOfTen_pos
    (e : Int) :
    0 < (powerOfTen e).1 ∧ 0 < (powerOfTen e).2 := by
  unfold powerOfTen
  split <;> simp

theorem powerOfTen_eq
    (e : Int) :
    ((powerOfTen e).1 : ℚ) = 10 ^ e * ((powerOfTen e).2 : ℚ) :=
  power_eq (by decide : 0 < 10) e

end Decimal

namespace Binary64

------------------------------------------------------------
-- The Exponent of a Quotient
------------------------------------------------------------

variable {num den : Nat}

/- The lengths of a quotient in bits tell its size. -/
theorem ratio_bounds
    (hNum : 0 < num)
    (hDen : 0 < den) :
    (2 : ℚ) ^ ((num.log2 : Int) - den.log2 - 1) < (num : ℚ) / den ∧
      (num : ℚ) / den < 2 ^ ((num.log2 : Int) - den.log2 + 1) := by
  have hNumLow : (2 : ℚ) ^ (num.log2 : Int) ≤ num := by
    exact_mod_cast Nat.log2_self_le (Nat.ne_of_gt hNum)
  have hNumHigh : (num : ℚ) < 2 ^ ((num.log2 : Int) + 1) := by
    exact_mod_cast Nat.lt_log2_self (n := num)
  have hDenLow : (2 : ℚ) ^ (den.log2 : Int) ≤ den := by
    exact_mod_cast Nat.log2_self_le (Nat.ne_of_gt hDen)
  have hDenHigh : (den : ℚ) < 2 ^ ((den.log2 : Int) + 1) := by
    exact_mod_cast Nat.lt_log2_self (n := den)
  have hDen' : (0 : ℚ) < den := by exact_mod_cast hDen
  have hTwo : (2 : ℚ) ≠ 0 := by norm_num
  constructor
  · rw [lt_div_iff₀ hDen']
    calc (2 : ℚ) ^ ((num.log2 : Int) - den.log2 - 1) * den
        < 2 ^ ((num.log2 : Int) - den.log2 - 1)
            * 2 ^ ((den.log2 : Int) + 1) := by
          exact mul_lt_mul_of_pos_left hDenHigh (by positivity)
      _ = 2 ^ (num.log2 : Int) := by
          rw [← zpow_add₀ hTwo]
          congr 1
          ring
      _ ≤ num := hNumLow
  · rw [div_lt_iff₀ hDen']
    calc (num : ℚ)
        < 2 ^ ((num.log2 : Int) + 1) := hNumHigh
      _ = 2 ^ ((num.log2 : Int) - den.log2 + 1)
            * 2 ^ (den.log2 : Int) := by
          rw [← zpow_add₀ hTwo]
          congr 1
          ring
      _ ≤ 2 ^ ((num.log2 : Int) - den.log2 + 1) * den :=
          mul_le_mul_of_nonneg_left hDenLow (by positivity)

/-
  The exponent at which a quotient is rounded: below it the
  quotient has at most 53 bits, and as many unless the exponent
  is the least one.
-/
theorem exponentOf_spec
    (hNum : 0 < num)
    (hDen : 0 < den) :
    -1074 ≤ exponentOf num den ∧
      (num : ℚ) / den < 2 ^ (exponentOf num den + 53) ∧
      (exponentOf num den = -1074 ∨
        (2 : ℚ) ^ (exponentOf num den + 52) ≤ (num : ℚ) / den) := by
  rcases ratio_bounds hNum hDen with ⟨hLow, hHigh⟩
  have hTest :=
    lt_powerOfTwo_iff num hDen
      ((num.log2 : Int) - den.log2 - 52 + 52)
  have hExact :
      ∃ exact : Int,
        exponentOf num den = max exact (-1074) ∧
          (num : ℚ) / den < 2 ^ (exact + 53) ∧
          (2 : ℚ) ^ (exact + 52) ≤ (num : ℚ) / den := by
    unfold exponentOf
    dsimp only
    split
    · rename_i hLess
      have hAt :
          (num.log2 : Int) - den.log2 - 52 - 1 + 52 =
            num.log2 - den.log2 - 1 := by
        omega
      have hNext :
          (num.log2 : Int) - den.log2 - 52 - 1 + 53 =
            num.log2 - den.log2 - 52 + 52 := by
        omega
      refine ⟨_, rfl, ?_, ?_⟩
      · rw [hNext]
        exact hTest.mp hLess
      · rw [hAt]
        exact le_of_lt hLow
    · rename_i hMore
      have hNext :
          (num.log2 : Int) - den.log2 - 52 + 53 =
            num.log2 - den.log2 + 1 := by
        omega
      refine ⟨_, rfl, ?_, ?_⟩
      · rw [hNext]
        exact hHigh
      · exact le_of_not_gt fun hLess => hMore (hTest.mpr hLess)
  rcases hExact with ⟨exact, hEq, hBelow, hAbove⟩
  rw [hEq]
  refine ⟨le_max_right _ _, ?_, ?_⟩
  · apply lt_of_lt_of_le hBelow
    apply zpow_le_zpow_right₀ (by norm_num)
    have := le_max_left exact (-1074)
    omega
  · by_cases hLeast : exact ≤ -1074
    · exact .inl (max_eq_right hLeast)
    · rw [max_eq_left (by omega)]
      exact .inr hAbove

/- The mantissa of a quotient at an exponent. -/
theorem roundHalfEven_ratio
    {m : Nat}
    (hDen : 0 < den)
    (e : Int)
    (hLow : ((m : ℚ) - 1 / 2) * 2 ^ e ≤ (num : ℚ) / den)
    (hHigh : (num : ℚ) / den ≤ ((m : ℚ) + 1 / 2) * 2 ^ e)
    (hOdd :
      m % 2 = 1 →
        ((m : ℚ) - 1 / 2) * 2 ^ e < (num : ℚ) / den ∧
          (num : ℚ) / den < ((m : ℚ) + 1 / 2) * 2 ^ e) :
    roundHalfEven (num * (powerOfTwo e).2)
        (den * (powerOfTwo e).1) =
      m := by
  -- Both sides of each comparison, over the common denominator.
  rcases common_denominator num hDen (powerOfTwo_pos e).2
    (powerOfTwo_eq e) with ⟨hScale, hNum, hUnit⟩
  have hPos : 0 < den * (powerOfTwo e).1 :=
    Nat.mul_pos hDen (powerOfTwo_pos e).1
  generalize num * (powerOfTwo e).2 = a at *
  generalize den * (powerOfTwo e).1 = b at *
  apply roundHalfEven_eq hPos
  · have hMul := mul_le_mul_of_nonneg_right hLow hScale.le
    have hCast : 2 * ((m : ℚ) * b) ≤ 2 * a + b := by
      rw [hNum, hUnit]
      linarith
    exact_mod_cast hCast
  · have hMul := mul_le_mul_of_nonneg_right hHigh hScale.le
    have hCast : 2 * (a : ℚ) ≤ 2 * (m * b) + b := by
      rw [hNum, hUnit]
      linarith
    exact_mod_cast hCast
  · intro hParity
    rcases hOdd hParity with ⟨hLow', hHigh'⟩
    have hMul := mul_lt_mul_of_pos_right hLow' hScale
    have hMul' := mul_lt_mul_of_pos_right hHigh' hScale
    have hCast : 2 * ((m : ℚ) * b) < 2 * a + b := by
      rw [hNum, hUnit]
      linarith
    have hCast' : 2 * (a : ℚ) < 2 * (m * b) + b := by
      rw [hNum, hUnit]
      linarith
    exact ⟨by exact_mod_cast hCast, by exact_mod_cast hCast'⟩

------------------------------------------------------------
-- The Interval of a Double
------------------------------------------------------------

/- The magnitude of a double. -/
def value
    (x : Binary64) : ℚ :=
  x.mantissa * 2 ^ x.exponent

/- The lower end of the interval of a double. -/
def low
    (x : Binary64) : ℚ :=
  (x.interval.1 : ℚ) / 4 * 2 ^ x.exponent

/- The upper end of the interval of a double. -/
def high
    (x : Binary64) : ℚ :=
  (x.interval.2 : ℚ) / 4 * 2 ^ x.exponent

/- A rational lies in the interval of a double. -/
def Holds
    (x : Binary64)
    (q : ℚ) : Prop :=
  x.low ≤ q ∧ q ≤ x.high ∧
    (x.mantissa % 2 = 1 → x.low < q ∧ q < x.high)

variable {x : Binary64}

theorem high_eq
    (x : Binary64) :
    x.high = ((x.mantissa : ℚ) + 1 / 2) * 2 ^ x.exponent := by
  have hHigh : x.interval.2 = 4 * x.mantissa + 2 := by
    unfold interval
    split <;> rfl
  rw [high, hHigh]
  push_cast
  ring

/- The doubles below a power of two lie twice as close. -/
theorem low_eq_of_narrow
    (hNarrow : x.mantissa = 0x10000000000000 ∧ -1074 < x.exponent) :
    x.low = ((2 : ℚ) ^ 52 - 1 / 4) * 2 ^ x.exponent := by
  have hLow : x.interval.1 = 4 * 0x10000000000000 - 1 := by
    rw [interval, if_pos hNarrow, hNarrow.1]
  rw [low, hLow]
  norm_num

theorem low_eq_of_wide
    (hPos : 0 < x.mantissa)
    (hWide : ¬ (x.mantissa = 0x10000000000000 ∧ -1074 < x.exponent)) :
    x.low = ((x.mantissa : ℚ) - 1 / 2) * 2 ^ x.exponent := by
  have hLow : x.interval.1 = 4 * x.mantissa - 2 := by
    rw [interval, if_neg hWide]
  rw [low, hLow, Nat.cast_sub (by omega)]
  push_cast
  ring

------------------------------------------------------------
-- Rounding Within the Interval
------------------------------------------------------------

theorem ofParts?_eq
    (x : Binary64)
    (negative : Bool) :
    ofParts? negative x.mantissa x.exponent =
      some (x.withSign negative) := by
  rw [ofParts?, dif_pos ⟨x.mantissa_lt, x.exponent_ge,
    x.exponent_le, x.normal⟩]
  rfl

/- Exponents with the same bounds are the same. -/
theorem exponent_unique
    {q : ℚ}
    {e e' : Int}
    (hBelow : q < 2 ^ (e + 53))
    (hAbove : e = -1074 ∨ (2 : ℚ) ^ (e + 52) ≤ q)
    (hBelow' : q < 2 ^ (e' + 53))
    (hAbove' : e' = -1074 ∨ (2 : ℚ) ^ (e' + 52) ≤ q)
    (hLeast : -1074 ≤ e)
    (hLeast' : -1074 ≤ e') :
    e = e' := by
  have hNotLess :
      ∀ {e e' : Int}, q < 2 ^ (e + 53) →
        (e' = -1074 ∨ (2 : ℚ) ^ (e' + 52) ≤ q) →
        -1074 ≤ e → e' ≤ e := by
    intro e e' hBelow hAbove' hLeast
    rcases hAbove' with rfl | hAbove'
    · exact hLeast
    · have hLt := lt_of_le_of_lt hAbove' hBelow
      have := (zpow_lt_zpow_iff_right₀ (by norm_num)).mp hLt
      omega
  exact le_antisymm (hNotLess hBelow' hAbove hLeast')
    (hNotLess hBelow hAbove' hLeast)

/- The interval reaches half a unit down at most. -/
theorem half_le_low
    (hPos : 0 < x.mantissa) :
    ((x.mantissa : ℚ) - 1 / 2) * 2 ^ x.exponent ≤ x.low := by
  by_cases hNarrow : x.mantissa = 0x10000000000000 ∧ -1074 < x.exponent
  · rw [low_eq_of_narrow hNarrow, hNarrow.1]
    apply mul_le_mul_of_nonneg_right _ (by positivity)
    norm_num
  · rw [low_eq_of_wide hPos hNarrow]

theorem high_lt
    (x : Binary64) :
    x.high < 2 ^ (x.exponent + 53) := by
  have hUnit : (0 : ℚ) < 2 ^ x.exponent := by positivity
  have hMantissa : (x.mantissa : ℚ) + 1 ≤ 2 ^ 53 := by
    exact_mod_cast x.mantissa_lt
  rw [high_eq, zpow_add₀ (by norm_num), mul_comm (2 ^ x.exponent)]
  apply mul_lt_mul_of_pos_right _ hUnit
  norm_num at hMantissa ⊢
  linarith

/- A quotient with the exponent of the double. -/
theorem ofRatio?_of_exponent
    (negative : Bool)
    (hPos : 0 < x.mantissa)
    (hNum : 0 < num)
    (hDen : 0 < den)
    (h : x.Holds ((num : ℚ) / den))
    (hAbove :
      x.exponent = -1074 ∨
        (2 : ℚ) ^ (x.exponent + 52) ≤ (num : ℚ) / den) :
    ofRatio? negative num den = some (x.withSign negative) := by
  rcases h with ⟨hLow, hHigh, hOdd⟩
  rcases exponentOf_spec hNum hDen with
    ⟨hLeast, hBelow, hAbove'⟩
  have hExponent : exponentOf num den = x.exponent :=
    exponent_unique hBelow hAbove' (lt_of_le_of_lt hHigh x.high_lt)
      hAbove hLeast x.exponent_ge
  have hHalf := half_le_low hPos
  have hHigh' := x.high_eq
  have hMantissa :
      roundHalfEven (num * (powerOfTwo x.exponent).2)
          (den * (powerOfTwo x.exponent).1) =
        x.mantissa := by
    apply roundHalfEven_ratio hDen
    · exact le_trans hHalf hLow
    · rw [← hHigh']
      exact hHigh
    · intro hParity
      rw [← hHigh']
      exact ⟨lt_of_le_of_lt hHalf (hOdd hParity).1,
        (hOdd hParity).2⟩
  have hNotTop : x.mantissa ≠ 0x20000000000000 := Nat.ne_of_lt x.mantissa_lt
  rw [ofRatio?, if_neg (Nat.ne_of_gt hNum)]
  simp only [hExponent, hMantissa, if_neg hNotTop]
  exact ofParts?_eq x negative

/-
  A quotient below the power of two that a double is.  It has the
  next smaller exponent, and its mantissa is rounded up to the
  power.
-/
theorem ofRatio?_of_narrow
    (negative : Bool)
    (hNum : 0 < num)
    (hDen : 0 < den)
    (hNarrow : x.mantissa = 0x10000000000000 ∧ -1074 < x.exponent)
    (hLow : x.low ≤ (num : ℚ) / den)
    (hBelow : (num : ℚ) / den < 2 ^ (x.exponent + 52)) :
    ofRatio? negative num den = some (x.withSign negative) := by
  have hUnit : (0 : ℚ) < 2 ^ (x.exponent - 1) := by positivity
  have hTwo : (2 : ℚ) ≠ 0 := by norm_num
  have hDouble : (2 : ℚ) ^ x.exponent = 2 * 2 ^ (x.exponent - 1) := by
    rw [← zpow_one_add₀ hTwo]
    congr 1
    omega
  have hTop :
      (2 : ℚ) ^ (x.exponent + 52) =
        2 ^ 53 * 2 ^ (x.exponent - 1) := by
    rw [zpow_add₀ hTwo, hDouble]
    norm_num
    ring
  rw [low_eq_of_narrow hNarrow, hDouble] at hLow
  rw [hTop] at hBelow
  rcases exponentOf_spec hNum hDen with
    ⟨hLeast, hBelow', hAbove'⟩
  have hExponent : exponentOf num den = x.exponent - 1 := by
    apply exponent_unique hBelow' hAbove' _ (.inr _) hLeast
      (by omega)
    · rw [zpow_add₀ hTwo, mul_comm]
      exact hBelow
    · rw [zpow_add₀ hTwo, mul_comm]
      refine le_trans ?_ hLow
      norm_num
      linarith
  have hMantissa :
      roundHalfEven (num * (powerOfTwo (x.exponent - 1)).2)
          (den * (powerOfTwo (x.exponent - 1)).1) =
        0x20000000000000 := by
    apply roundHalfEven_ratio hDen
    · refine le_trans (le_of_eq ?_) hLow
      norm_num
      ring
    · refine le_trans (le_of_lt hBelow) ?_
      norm_num
      linarith
    · intro hParity
      norm_num at hParity
  rw [ofRatio?, if_neg (Nat.ne_of_gt hNum)]
  simp only [hExponent, hMantissa, if_true, Int.sub_add_cancel]
  rw [← hNarrow.1]
  exact ofParts?_eq x negative

/- A quotient in the interval of a double is rounded to it. -/
theorem ofRatio?_of_holds
    (negative : Bool)
    (hPos : 0 < x.mantissa)
    (hNum : 0 < num)
    (hDen : 0 < den)
    (h : x.Holds ((num : ℚ) / den)) :
    ofRatio? negative num den = some (x.withSign negative) := by
  by_cases hAbove :
      x.exponent = -1074 ∨
        (2 : ℚ) ^ (x.exponent + 52) ≤ (num : ℚ) / den
  · exact ofRatio?_of_exponent negative hPos hNum hDen h hAbove
  · rw [not_or, not_le] at hAbove
    rcases hAbove with ⟨hExponent, hBelow⟩
    have hLeast := x.exponent_ge
    have hNormal : 0x10000000000000 ≤ x.mantissa :=
      Nat.le_of_not_lt fun hLt => hExponent (x.normal hLt)
    have hNarrow : x.mantissa = 0x10000000000000 ∧ -1074 < x.exponent := by
      refine ⟨?_, by omega⟩
      by_contra hMore
      -- Half a unit below a greater mantissa is no power of two.
      have hWide := low_eq_of_wide hPos fun hBoth => hMore hBoth.1
      have hSucc : (2 : ℚ) ^ 52 + 1 ≤ x.mantissa := by
        exact_mod_cast Nat.lt_of_le_of_ne hNormal (Ne.symm hMore)
      have hUnit : (0 : ℚ) < 2 ^ x.exponent := by positivity
      have hLt := lt_of_le_of_lt h.1 hBelow
      rw [hWide, zpow_add₀ (by norm_num),
        mul_comm ((2 : ℚ) ^ x.exponent),
        mul_lt_mul_iff_left₀ hUnit] at hLt
      norm_num at hLt
      linarith
    exact ofRatio?_of_narrow negative hNum hDen hNarrow h.1 hBelow

end Binary64

end TreeWire
