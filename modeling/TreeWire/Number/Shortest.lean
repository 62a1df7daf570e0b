import TreeWire.Number.Binary64

/-
  The shortest decimal that reads back as a given double.

  The reals that round to a double form an interval around
  it, ends included when the mantissa is even.  On the grid of
  decimals with a given number of digits only the two
  neighbours of the double can be nearest to it, so the first
  grid on which one of them lies in the interval gives the
  fewest digits.

  Key definitions include:
    * `Decimal`
    * `Binary64.interval`
    * `Binary64.shortest`
-/

namespace TreeWire

------------------------------------------------------------
-- Decimals
------------------------------------------------------------

/- The number `coefficient * 10 ^ exponent`. -/
structure Decimal where
  coefficient : Nat
  exponent : Int
  deriving DecidableEq, Repr, Inhabited

namespace Decimal

/- The digits of the coefficient, highest first. -/
def digits
    (d : Decimal) : List Char :=
  Nat.toDigits 10 d.coefficient

/- The power of ten as numerator and denominator. -/
def powerOfTen
    (e : Int) : Nat × Nat :=
  if 0 ≤ e then (Nat.pow 10 e.toNat, 1)
  else (1, Nat.pow 10 (-e).toNat)

/- Whether a decimal is at most a quotient. -/
def leRatio
    (d : Decimal)
    (num den : Nat) : Bool :=
  let (up, down) := powerOfTen d.exponent
  d.coefficient * up * den ≤ num * down

/- Whether a decimal is at least a quotient. -/
def geRatio
    (d : Decimal)
    (num den : Nat) : Bool :=
  let (up, down) := powerOfTen d.exponent
  num * down ≤ d.coefficient * up * den

/- The same number without zeros at the end. -/
def trimZeros
    (d : Decimal) : Nat → Decimal
  | 0 =>
      d
  | fuel + 1 =>
      if d.coefficient ≠ 0 ∧ d.coefficient % 10 = 0 then
        trimZeros ⟨d.coefficient / 10, d.exponent + 1⟩ fuel
      else
        d

end Decimal

namespace Binary64

------------------------------------------------------------
-- The Interval of a Double
------------------------------------------------------------

/-
  The ends of the interval of reals that round to a positive
  double, in quarters of its last place.  Below a power of two
  the doubles lie twice as close.
-/
def interval
    (x : Binary64) : Nat × Nat :=
  if x.mantissa = 0x10000000000000 ∧ -1074 < x.exponent then
    (4 * x.mantissa - 1, 4 * x.mantissa + 2)
  else
    (4 * x.mantissa - 2, 4 * x.mantissa + 2)

/- A number of quarters of the last place, as a quotient. -/
def quarters
    (x : Binary64)
    (n : Nat) : Nat × Nat :=
  let (up, down) := powerOfTwo (x.exponent - 2)
  (n * up, down)

/- Whether a decimal reads back as a positive double. -/
def readsBack
    (x : Binary64)
    (d : Decimal) : Bool :=
  let (low, high) := x.interval
  let (lowNum, lowDen) := x.quarters low
  let (highNum, highDen) := x.quarters high
  let atLeast := d.geRatio lowNum lowDen
  let atMost := d.leRatio highNum highDen
  if x.mantissa % 2 = 0 then
    atLeast && atMost
  else
    atLeast && atMost && !d.leRatio lowNum lowDen
      && !d.geRatio highNum highDen

------------------------------------------------------------
-- Shortest Digits
------------------------------------------------------------

/-
  The exponent of the first decimal digit of a positive
  quotient: the greatest `e` with `10 ^ e` at most the
  quotient, searched upwards from a bound below it.
-/
def leadingExponent
    (num den : Nat) : Int :=
  let bits : Int := (num.log2 : Int) - den.log2 - 1
  let start : Int := (bits * 30103).fdiv 100000 - 1
  let climb (e : Int) : Int :=
    if Decimal.leRatio ⟨1, e + 1⟩ num den then e + 1 else e
  climb (climb (climb start))

/-
  On the grid of step `10 ^ e`, the neighbour of a positive
  double that reads back as it, the nearer of two, the even
  one of two that are equally near.
-/
def onGrid?
    (x : Binary64)
    (e : Int) : Option Decimal :=
  let (num, den) := x.toRatio
  let (up, down) := Decimal.powerOfTen e
  let below := num * down / (den * up)
  let remainder := num * down % (den * up)
  let low : Decimal := ⟨below, e⟩
  let high : Decimal := ⟨below + 1, e⟩
  match x.readsBack low, x.readsBack high with
  | true, true =>
      if 2 * remainder < den * up then some low
      else if den * up < 2 * remainder then some high
      else if below % 2 = 0 then some low
      else some high
  | true, false =>
      some low
  | false, true =>
      some high
  | false, false =>
      none

/-
  The shortest decimal for a positive double, tried from the
  coarsest grid; seventeen digits always read back.
-/
def search
    (x : Binary64)
    (e : Int) : Nat → Decimal
  | 0 =>
      ⟨0, 0⟩
  | tries + 1 =>
      match x.onGrid? e with
      | some d => d
      | none => search x (e - 1) tries

/- The shortest decimal that reads back as a positive double. -/
def shortest
    (x : Binary64) : Decimal :=
  let (num, den) := x.toRatio
  (search x (leadingExponent num den) 17).trimZeros 17

end Binary64

end TreeWire
