/-
  Finite doubles as exact numbers, and rounding to them.

  A double is a sign, a mantissa below 2^53 and an exponent,
  and stands for mantissa * 2^exponent.  The mantissa has its
  top bit set unless the exponent is the least one, so every
  value has one form (two for zero, one per sign).

  Key definitions include:
    * `roundHalfEven`
    * `Binary64`
    * `Binary64.ofRatio?`
    * `Binary64.mul?`
    * `Binary64.div?`
-/

namespace TreeWire

------------------------------------------------------------
-- Rounded Quotients
------------------------------------------------------------

/-
  The natural number nearest to a quotient; a tie goes to the
  even neighbour.
-/
def roundHalfEven
    (num den : Nat) : Nat :=
  let q := num / den
  let r := num % den
  if 2 * r < den then q
  else if den < 2 * r then q + 1
  else if q % 2 = 0 then q
  else q + 1

------------------------------------------------------------
-- Doubles
------------------------------------------------------------

/-
  A finite double.  Its mantissa has 53 bits, or fewer at the
  least exponent.
-/
structure Binary64 where
  negative : Bool
  mantissa : Nat
  exponent : Int
  mantissa_lt : mantissa < 0x20000000000000
  exponent_ge : -1074 ≤ exponent
  exponent_le : exponent ≤ 971
  normal : mantissa < 0x10000000000000 → exponent = -1074
  deriving DecidableEq

namespace Binary64

/- The double with the given parts, if they have its form. -/
def ofParts?
    (negative : Bool)
    (mantissa : Nat)
    (exponent : Int) : Option Binary64 :=
  if h : mantissa < 0x20000000000000
      ∧ -1074 ≤ exponent ∧ exponent ≤ 971
      ∧ (mantissa < 0x10000000000000 → exponent = -1074) then
    some ⟨negative, mantissa, exponent,
      h.1, h.2.1, h.2.2.1, h.2.2.2⟩
  else
    none

/- Zero with the given sign. -/
def zero
    (negative : Bool) : Binary64 where
  negative := negative
  mantissa := 0
  exponent := -1074
  mantissa_lt := by decide
  exponent_ge := by decide
  exponent_le := by decide
  normal := fun _ => rfl

instance : Inhabited Binary64 :=
  ⟨zero false⟩

/- The same magnitude with the given sign. -/
def withSign
    (x : Binary64)
    (negative : Bool) : Binary64 :=
  { x with negative := negative }

/- Whether a double is zero, of either sign. -/
def isZero
    (x : Binary64) : Bool :=
  x.mantissa == 0

------------------------------------------------------------
-- Rounding
------------------------------------------------------------

/- The power of two as numerator and denominator. -/
def powerOfTwo
    (e : Int) : Nat × Nat :=
  if 0 ≤ e then (Nat.pow 2 e.toNat, 1)
  else (1, Nat.pow 2 (-e).toNat)

/-
  The exponent at which a positive quotient has a mantissa of
  53 bits, but never below the least exponent.
-/
def exponentOf
    (num den : Nat) : Int :=
  let guess : Int := (num.log2 : Int) - den.log2 - 52
  let (up, down) := powerOfTwo (guess + 52)
  let exact := if num * down < den * up then guess - 1 else guess
  max exact (-1074)

/-
  The double nearest to a quotient; a tie goes to the even
  mantissa.  There is none when the quotient lies beyond the
  greatest double by half a step or more.
-/
def ofRatio?
    (negative : Bool)
    (num den : Nat) : Option Binary64 :=
  if num = 0 then
    some (zero negative)
  else
    let e := exponentOf num den
    let (up, down) := powerOfTwo e
    let m := roundHalfEven (num * down) (den * up)
    if m = 0x20000000000000 then
      ofParts? negative 0x10000000000000 (e + 1)
    else
      ofParts? negative m e

/- The magnitude of a double as a quotient. -/
def toRatio
    (x : Binary64) : Nat × Nat :=
  let (up, down) := powerOfTwo x.exponent
  (x.mantissa * up, down)

------------------------------------------------------------
-- Products and Quotients
------------------------------------------------------------

/- The rounded product of the magnitudes of two doubles. -/
def mul?
    (x y : Binary64) : Option Binary64 :=
  let (a, b) := x.toRatio
  let (c, d) := y.toRatio
  ofRatio? false (a * c) (b * d)

/-
  The rounded quotient of the magnitudes of two doubles, the
  second of which is not zero.
-/
def div?
    (x y : Binary64) : Option Binary64 :=
  let (a, b) := x.toRatio
  let (c, d) := y.toRatio
  ofRatio? false (a * d) (b * c)

end Binary64

end TreeWire
