import TreeWire.Proofs.Number.FloatReading
import TreeWire.Proofs.Source.Lexemes

/-
  Numbers beyond the range of 64 bits.

  A quotient has no nearest double when it lies beyond the
  greatest double by half a step or more.  The text of a number
  always shows an integer or a decimal, so the reading of a
  number fails for its size and for nothing else.

  Key definitions include:
    * `Binary64.beyond`
    * `OutOfRange`

  Main statements:
    * `Binary64.ofRatio?_eq_none_iff`
    * `Decimal.toBinary64?_eq_none_iff`
    * `readInt64?_eq_none_iff`
    * `readFloat?_eq_none_iff`
-/

namespace TreeWire

open Grammar

------------------------------------------------------------
-- Rounding Is Near
------------------------------------------------------------

/- A rounded quotient is half a unit off at most. -/
theorem roundHalfEven_near
    (num : Nat)
    {den : Nat}
    (hDen : 0 < den) :
    2 * (roundHalfEven num den * den) ≤ 2 * num + den ∧
      2 * num ≤ 2 * (roundHalfEven num den * den) + den := by
  have hNum : den * (num / den) + num % den = num :=
    Nat.div_add_mod num den
  have hRest : num % den < den := Nat.mod_lt num hDen
  have hNext : (num / den + 1) * den = den * (num / den) + den := by
    ring
  have hSame : num / den * den = den * (num / den) := by
    ring
  unfold roundHalfEven
  dsimp only
  split_ifs <;> simp only [hNext, hSame] <;> omega

namespace Binary64

variable {num den : Nat}

/- The same over the rationals, at a power of two. -/
theorem roundHalfEven_ratio_near
    (num : Nat)
    (hDen : 0 < den)
    (e : Int) :
    ((roundHalfEven (num * (powerOfTwo e).2)
          (den * (powerOfTwo e).1) : ℚ) - 1 / 2) * 2 ^ e ≤
        (num : ℚ) / den ∧
      (num : ℚ) / den ≤
        ((roundHalfEven (num * (powerOfTwo e).2)
          (den * (powerOfTwo e).1) : ℚ) + 1 / 2) * 2 ^ e := by
  rcases common_denominator num hDen (powerOfTwo_pos e).2
    (powerOfTwo_eq e) with ⟨hScale, hNum, hUnit⟩
  have hPos : 0 < den * (powerOfTwo e).1 :=
    Nat.mul_pos hDen (powerOfTwo_pos e).1
  rcases roundHalfEven_near (num * (powerOfTwo e).2) hPos with
    ⟨hLow, hHigh⟩
  generalize num * (powerOfTwo e).2 = a at *
  generalize den * (powerOfTwo e).1 = b at *
  generalize roundHalfEven a b = m at *
  have hLow' : 2 * ((m : ℚ) * b) ≤ 2 * a + b := by
    exact_mod_cast hLow
  have hHigh' : 2 * (a : ℚ) ≤ 2 * (m * b) + b := by
    exact_mod_cast hHigh
  rw [hNum, hUnit] at hLow' hHigh'
  constructor
  · apply le_of_mul_le_mul_right _ hScale
    linarith
  · apply le_of_mul_le_mul_right _ hScale
    linarith

------------------------------------------------------------
-- Beyond the Greatest Double
------------------------------------------------------------

/-
  Half a step above the greatest double.  From here on a number
  has no nearest double.
-/
def beyond : ℚ :=
  ((2 : ℚ) ^ 53 - 1 / 2) * 2 ^ (971 : Int)

theorem beyond_pos : 0 < beyond := by
  rw [beyond]
  apply mul_pos _ (by positivity)
  norm_num

theorem two_zpow_split
    (k : Nat)
    (e : Int) :
    (2 : ℚ) ^ (e + k) = 2 ^ k * 2 ^ e := by
  rw [zpow_add₀ (by norm_num), zpow_natCast, mul_comm]

theorem beyond_le : beyond ≤ 2 ^ (1024 : Int) := by
  have hSplit := two_zpow_split 53 971
  rw [show (971 : Int) + (53 : Nat) = 1024 from rfl] at hSplit
  rw [beyond, hSplit]
  apply mul_le_mul_of_nonneg_right _ (by positivity)
  norm_num

theorem lt_beyond : (2 : ℚ) ^ (1023 : Int) < beyond := by
  have hSplit := two_zpow_split 52 971
  rw [show (971 : Int) + (52 : Nat) = 1023 from rfl] at hSplit
  rw [beyond, hSplit]
  apply mul_lt_mul_of_pos_right _ (by positivity)
  norm_num

/- A form that is refused for its exponent only. -/
theorem ofParts?_eq_none_iff
    {negative : Bool}
    {m : Nat}
    {e : Int}
    (hMantissa : m < 0x20000000000000)
    (hLeast : -1074 ≤ e)
    (hNormal : m < 0x10000000000000 → e = -1074) :
    ofParts? negative m e = none ↔ 971 < e := by
  unfold ofParts?
  split
  · rename_i h
    simp only [reduceCtorEq, false_iff, not_lt]
    exact h.2.2.1
  · rename_i h
    simp only [true_iff]
    by_contra hLe
    exact h ⟨hMantissa, hLeast, not_lt.mp hLe, hNormal⟩

/- A number below so many bits has a mantissa of so many bits. -/
theorem mantissa_le_of_lt
    {x : ℚ}
    {m : Nat}
    {e : Int}
    (hNear : ((m : ℚ) - 1 / 2) * 2 ^ e ≤ x)
    (hBelow : x < 2 ^ (e + 53)) :
    m ≤ 0x20000000000000 := by
  have hUnit : (0 : ℚ) < 2 ^ e := by positivity
  have hLt : ((m : ℚ) - 1 / 2) * 2 ^ e < 2 ^ 53 * 2 ^ e :=
    lt_of_le_of_lt hNear (two_zpow_split 53 e ▸ hBelow)
  have hCast := lt_of_mul_lt_mul_right hLt hUnit.le
  have hNat : (m : ℚ) < 2 ^ 53 + 1 := by linarith
  exact Nat.lt_succ_iff.mp (by exact_mod_cast hNat)

theorem le_mantissa_of_le
    {x : ℚ}
    {m : Nat}
    {e : Int}
    (hNear : x ≤ ((m : ℚ) + 1 / 2) * 2 ^ e)
    (hAbove : (2 : ℚ) ^ (e + 52) ≤ x) :
    0x10000000000000 ≤ m := by
  have hUnit : (0 : ℚ) < 2 ^ e := by positivity
  have hLe : (2 : ℚ) ^ 52 * 2 ^ e ≤ ((m : ℚ) + 1 / 2) * 2 ^ e :=
    le_trans (two_zpow_split 52 e ▸ hAbove) hNear
  have hCast := le_of_mul_le_mul_right hLe hUnit
  by_contra hSmall
  have hNat : (m : ℚ) + 1 ≤ 2 ^ 52 := by
    exact_mod_cast Nat.not_le.mp hSmall
  linarith

/-
  A number at the exponent 971 is beyond when its mantissa is
  rounded up to the next power of two.
-/
theorem beyond_le_iff_round
    (hDen : 0 < den)
    (hBelow : (num : ℚ) / den < 2 ^ (971 + 53 : Int)) :
    beyond ≤ (num : ℚ) / den ↔
      roundHalfEven (num * (powerOfTwo 971).2)
        (den * (powerOfTwo 971).1) = 0x20000000000000 := by
  have hFull : ((0x20000000000000 : Nat) : ℚ) = 2 ^ 53 := by
    norm_num
  constructor
  · intro hLe
    apply roundHalfEven_ratio hDen
    · rw [hFull]
      exact hLe
    · have hTop := hBelow.le
      have hSplit := two_zpow_split 53 971
      rw [Nat.cast_ofNat] at hSplit
      rw [hSplit] at hTop
      refine le_trans hTop ?_
      apply mul_le_mul_of_nonneg_right _ (by positivity)
      norm_num
    · intro hOdd
      norm_num at hOdd
  · intro hRound
    have hNear := (roundHalfEven_ratio_near num hDen 971).1
    rw [hRound, hFull] at hNear
    exact hNear

/- The bound lies at the exponent 971, and only there. -/
theorem beyond_le_iff_exponent
    {x : ℚ}
    {e : Int}
    (hBelow : x < 2 ^ (e + 53))
    (hAbove : e = -1074 ∨ (2 : ℚ) ^ (e + 52) ≤ x) :
    beyond ≤ x ↔ 971 < e ∨ e = 971 ∧ beyond ≤ x := by
  constructor
  · intro hLe
    have hPowers : (2 : ℚ) ^ (1023 : Int) < 2 ^ (e + 53) :=
      lt_trans (lt_of_lt_of_le lt_beyond hLe) hBelow
    have hExp := (zpow_lt_zpow_iff_right₀ (by norm_num)).mp hPowers
    rcases lt_or_eq_of_le (show 971 ≤ e by omega) with hLt | hEq
    · exact .inl hLt
    · exact .inr ⟨hEq.symm, hLe⟩
  · intro hCases
    rcases hCases with hLt | ⟨_, hLe⟩
    · have hPower : (2 : ℚ) ^ (e + 52) ≤ x := by
        rcases hAbove with hEq | hPower
        · omega
        · exact hPower
      refine le_trans beyond_le (le_trans ?_ hPower)
      exact zpow_le_zpow_right₀ (by norm_num) (by omega)
    · exact hLe

/-
  A quotient has no nearest double exactly when it lies half a
  step beyond the greatest one.
-/
theorem ofRatio?_eq_none_iff
    (negative : Bool)
    (hNum : 0 < num)
    (hDen : 0 < den) :
    ofRatio? negative num den = none ↔
      beyond ≤ (num : ℚ) / den := by
  rcases exponentOf_spec hNum hDen with ⟨hLeast, hBelow, hAbove⟩
  rw [ofRatio?, if_neg (Nat.ne_of_gt hNum)]
  dsimp only
  generalize exponentOf num den = e at *
  rcases roundHalfEven_ratio_near num hDen e with ⟨hLow, hHigh⟩
  have hRound :
      e = 971 ∧ beyond ≤ (num : ℚ) / den ↔
        e = 971 ∧
          roundHalfEven (num * (powerOfTwo e).2)
            (den * (powerOfTwo e).1) = 0x20000000000000 := by
    apply and_congr_right
    rintro rfl
    exact beyond_le_iff_round hDen hBelow
  rw [beyond_le_iff_exponent hBelow hAbove, hRound]
  generalize
    roundHalfEven (num * (powerOfTwo e).2) (den * (powerOfTwo e).1) =
      m at *
  -- The mantissa has 53 bits, or is the next power of two.
  have hMost := mantissa_le_of_lt hLow hBelow
  have hNormal : m < 0x10000000000000 → e = -1074 := by
    intro hSmall
    rcases hAbove with hEq | hPower
    · exact hEq
    · exact absurd (le_mantissa_of_le hHigh hPower)
        (Nat.not_le.mpr hSmall)
  by_cases hFull : m = 0x20000000000000
  · rw [if_pos hFull,
      ofParts?_eq_none_iff (by norm_num) (by omega) (by norm_num)]
    simp only [hFull, and_true]
    omega
  · rw [if_neg hFull,
      ofParts?_eq_none_iff (by omega) hLeast hNormal]
    simp only [hFull, and_false, or_false]

end Binary64

------------------------------------------------------------
-- Decimals
------------------------------------------------------------

namespace Decimal

/- The power of ten from which on all decimals are beyond. -/
theorem beyond_le_ten_pow
    {e : Int}
    (h : 309 ≤ e) :
    Binary64.beyond ≤ 10 ^ e := by
  have hPower : (10 : ℚ) ^ (-309 : Int) ≤ 2 ^ (-1024 : Int) :=
    Binary64.ten_pow_le_two_pow_of_nonpos (by decide) (by decide)
  rw [zpow_neg, zpow_neg] at hPower
  have hInverse :=
    (inv_le_inv₀ (by positivity) (by positivity)).mp hPower
  calc Binary64.beyond
      ≤ 2 ^ (1024 : Int) := Binary64.beyond_le
    _ ≤ 10 ^ (309 : Int) := hInverse
    _ ≤ 10 ^ e := zpow_le_zpow_right₀ (by norm_num) h

/- A decimal has no nearest double exactly when it is beyond. -/
theorem toBinary64?_eq_none_iff
    (negative : Bool)
    (d : Decimal) :
    d.toBinary64? negative = none ↔ Binary64.beyond ≤ d.value := by
  unfold toBinary64?
  by_cases hZero : d.coefficient = 0
  · rw [if_pos hZero, value, hZero]
    simpa using Binary64.beyond_pos
  · have hPos := Nat.pos_of_ne_zero hZero
    rcases value_bounds hPos with ⟨hAbove, hBelow⟩
    rw [if_neg hZero]
    by_cases hLarge : 310 < d.leading
    · rw [if_pos hLarge]
      simp only [true_iff]
      exact le_trans (beyond_le_ten_pow (by omega)) hAbove
    · rw [if_neg hLarge]
      by_cases hSmall : d.leading < -330
      · rw [if_pos hSmall]
        simp only [reduceCtorEq, false_iff, not_le]
        calc d.value < 10 ^ (d.leading + 1) := hBelow
          _ ≤ 10 ^ (0 : Int) :=
              zpow_le_zpow_right₀ (by norm_num) (by omega)
          _ = 2 ^ (0 : Int) := by norm_num
          _ ≤ 2 ^ (1023 : Int) :=
              zpow_le_zpow_right₀ (by norm_num) (by decide)
          _ < Binary64.beyond := Binary64.lt_beyond
      · rw [if_neg hSmall]
        rcases powerOfTen_pos d.exponent with ⟨hUp, hDown⟩
        rw [← d.ratio_eq_value]
        exact Binary64.ofRatio?_eq_none_iff negative
          (Nat.mul_pos hPos hUp) hDown

end Decimal

------------------------------------------------------------
-- Numbers Out of Range
------------------------------------------------------------

/- The number that a text shows does not fit in 64 bits. -/
inductive OutOfRange : LiteralKind → String → Prop where
  | int
      {text : String}
      {n : Int}
      (hRead : readInt? text = some n)
      (hRange : n < -2 ^ 63 ∨ 2 ^ 63 ≤ n) :
      OutOfRange .int text
  | float
      {text : String}
      {cs : List Char}
      {d : Decimal}
      (negative : Bool)
      (hText :
        text.toList = (if negative then ['-'] else []) ++ cs)
      (hRead : Decimal.read? cs = some d)
      (hRange : Binary64.beyond ≤ d.value) :
      OutOfRange .float text

theorem OutOfRange.readInt64?_eq
    {text : String}
    (h : OutOfRange .int text) :
    readInt64? text = none := by
  cases h with
  | int hRead hRange =>
      rw [readInt64?, hRead]
      simp only [ite_eq_right_iff, reduceCtorEq, imp_false]
      omega

theorem OutOfRange.readFloat?_eq
    {text : String}
    (h : OutOfRange .float text) :
    readFloat? text = none := by
  cases h with
  | float negative hText hRead hRange =>
      rw [readFloat?_signed negative hText hRead]
      exact (Decimal.toBinary64?_eq_none_iff negative _).mpr hRange

/- An integer of the grammar is read as some integer. -/
theorem exists_readInt?
    {text : String}
    (h : Number (utf8 text.toList) .int) :
    ∃ n, readInt? text = some n := by
  rcases h.int_cases with hWhole | ⟨whole, hBytes, hWhole⟩
  · rcases toDigits_of_whole hWhole with ⟨_, hSame⟩
    have hText := readInt?_intText (digitsValue text.toList)
    rw [intText_natCast, hSame, String.ofList_toList] at hText
    exact ⟨_, hText⟩
  · rcases eq_minus_of_utf8 hBytes with ⟨ds, hText, rfl⟩
    rcases toDigits_of_whole hWhole with ⟨hDigits, _⟩
    rw [readInt?, hText]
    exact ⟨_, if_pos hDigits⟩

/- Reading an integer fails for its size only. -/
theorem readInt64?_eq_none_iff
    {text : String}
    (h : Number (utf8 text.toList) .int) :
    readInt64? text = none ↔ OutOfRange .int text := by
  constructor
  · intro hNone
    rcases exists_readInt? h with ⟨n, hRead⟩
    rw [readInt64?, hRead] at hNone
    simp only [ite_eq_right_iff, reduceCtorEq, imp_false] at hNone
    exact .int hRead (by omega)
  · exact OutOfRange.readInt64?_eq

------------------------------------------------------------
-- Characters of Floats
------------------------------------------------------------

/- Digits of the grammar are digits. -/
theorem Grammar.Digits.chars
    {bytes : List UInt8}
    (h : Digits bytes) :
    ∃ ds, utf8 ds = bytes ∧ isDigits ds = true := by
  have hBytes := Lexeme.utf8_asciiText h.ascii
  generalize (Lexeme.asciiText bytes).toList = ds at hBytes
  subst hBytes
  have hNil : ds ≠ [] := by
    intro hEq
    exact h.1 (by rw [hEq, utf8_nil])
  refine ⟨ds, rfl, ?_⟩
  simpa [isDigits, hNil] using isDigit_of_utf8 h.2

theorem Grammar.Whole.chars
    {bytes : List UInt8}
    (h : Whole bytes) :
    ∃ ds, utf8 ds = bytes ∧ isDigits ds = true := by
  cases h with
  | zero => exact ⟨['0'], rfl, rfl⟩
  | digits hDigits => exact hDigits.chars

theorem Grammar.Fraction.chars
    {bytes : List UInt8}
    (h : Fraction bytes) :
    ∃ ds,
      utf8 (fractionText ds) = bytes ∧
        ∀ c ∈ ds, c.isDigit = true := by
  cases h with
  | none => exact ⟨[], rfl, nofun⟩
  | digits hDigits =>
      rcases hDigits.chars with ⟨ds, rfl, hAll⟩
      simp only [isDigits, Bool.and_eq_true, Bool.not_eq_true',
        List.isEmpty_eq_false_iff, List.all_eq_true] at hAll
      refine ⟨ds, ?_, hAll.2⟩
      rw [fractionText, if_neg (by simpa using hAll.1),
        utf8_cons_ascii _ (by decide)]
      rfl

/- The characters of an exponent, and what it is read as. -/
theorem Grammar.Exponent.chars
    {bytes : List UInt8}
    (h : Exponent bytes) :
    ∃ tail e,
      utf8 tail = bytes ∧ Decimal.readExponent? tail = some e ∧
        ∀ c ∈ tail.head?, c.isDigit = false ∧ c ≠ '.' := by
  cases h with
  | none => exact ⟨[], 0, rfl, rfl, nofun⟩
  | @digits mark sign _ hMark hSign hDigits =>
      rcases hDigits.chars with ⟨ds, rfl, hAll⟩
      have hMarkChar :
          ∃ m : Char, (m = 'e' ∨ m = 'E') ∧ utf8 [m] = [mark] := by
        rcases hMark with rfl | rfl
        · exact ⟨'e', .inl rfl, rfl⟩
        · exact ⟨'E', .inr rfl, rfl⟩
      have hSignChars :
          ∃ ss : List Char, (ss = [] ∨ ss = ['+'] ∨ ss = ['-']) ∧
            utf8 ss = sign := by
        rcases hSign with rfl | rfl | rfl
        · exact ⟨[], .inl rfl, rfl⟩
        · exact ⟨['+'], .inr (.inl rfl), rfl⟩
        · exact ⟨['-'], .inr (.inr rfl), rfl⟩
      rcases hMarkChar with ⟨m, hM, hMBytes⟩
      rcases hSignChars with ⟨ss, hSs, rfl⟩
      have hTail : ∃ e,
          Decimal.readExponent? (m :: (ss ++ ds)) = some e := by
        simp only [Decimal.readExponent?, if_pos hM]
        rcases hSs with rfl | rfl | rfl
        · rw [List.nil_append]
          split <;> simp_all [isDigits]
        · exact ⟨_, if_pos hAll⟩
        · exact ⟨_, if_pos hAll⟩
      rcases hTail with ⟨e, hRead⟩
      refine ⟨m :: (ss ++ ds), e, ?_, hRead, ?_⟩
      · rw [← List.singleton_append, utf8_append, utf8_append, hMBytes]
        rfl
      · intro c hHead
        cases hHead
        rcases hM with rfl | rfl <;> decide

/-
  A number of the grammar is a sign or none, and what is read as
  a decimal.
-/
theorem exists_read?
    {cs : List Char}
    {kind : LiteralKind}
    (h : Number (utf8 cs) kind) :
    ∃ (negative : Bool) (ds : List Char) (d : Decimal),
      cs = (if negative then ['-'] else []) ++ ds ∧
        Decimal.read? ds = some d := by
  generalize hBytes : utf8 cs = bytes at h
  cases h with
  | mk hSign hWhole hFraction hExponent =>
      rcases hWhole.chars with ⟨whole, rfl, hDigits⟩
      rcases hFraction.chars with ⟨part, rfl, hPart⟩
      rcases hExponent.chars with ⟨tail, e, rfl, hRead, hTail⟩
      simp only [isDigits, Bool.and_eq_true, Bool.not_eq_true',
        List.isEmpty_eq_false_iff, List.all_eq_true] at hDigits
      have hDecimal :=
        read?_parts hDigits.1
          (List.forall_mem_append.mpr ⟨hDigits.2, hPart⟩) hTail hRead
      rcases hSign with rfl | rfl
      · refine ⟨false, _, _, utf8_injective ?_, hDecimal⟩
        simpa using hBytes
      · refine ⟨true, _, _, utf8_injective ?_, hDecimal⟩
        rw [hBytes]
        simp only [utf8_append, List.append_assoc, if_true]
        rfl

/- Reading a float fails for its size only. -/
theorem readFloat?_eq_none_iff
    {text : String}
    (h : Number (utf8 text.toList) .float) :
    readFloat? text = none ↔ OutOfRange .float text := by
  constructor
  · intro hNone
    rcases exists_read? h with ⟨negative, ds, d, hText, hRead⟩
    rw [readFloat?_signed negative hText hRead,
      Decimal.toBinary64?_eq_none_iff] at hNone
    exact .float negative hText hRead hNone
  · exact OutOfRange.readFloat?_eq

end TreeWire
