import TreeWire.Json.Basic

/-
  Numbers of parsed JSON documents.

  An integer that fits 64 bits stays an integer.  Every other
  number becomes a double: as many leading digits as fit 64
  bits are rounded to a double, and that is multiplied or
  divided by a power of ten, each step rounded on its own.

  Key definitions include:
    * `JsonNumber.appendDigits`
    * `JsonNumber.scale`
    * `JsonNumber.integer`
-/

namespace TreeWire

namespace JsonNumber

------------------------------------------------------------
-- Leading Digits
------------------------------------------------------------

/- The greatest number of 64 bits. -/
def greatestWord : Nat :=
  0xffffffffffffffff

/- The greatest exponent that is read digit by digit. -/
def greatestExponent : Nat :=
  0x7fffffff

/-
  Append digits to a number as long as it fits 64 bits, and
  count the digits that were appended.
-/
def appendDigits
    (value : Nat)
    (count : Nat) :
    List Nat → Nat × Nat
  | [] =>
      (value, count)
  | digit :: digits =>
      if greatestWord < 10 * value + digit then
        (value, count)
      else
        appendDigits (10 * value + digit) (count + 1) digits

/-
  Append digits to an exponent; there is none when it grows
  too large.
-/
def appendExponent?
    (value : Nat) :
    List Nat → Option Nat
  | [] =>
      some value
  | digit :: digits =>
      if greatestExponent < 10 * value + digit then
        none
      else
        appendExponent? (10 * value + digit) digits

------------------------------------------------------------
-- Scaling
------------------------------------------------------------

/- The double nearest to a power of ten. -/
def powerOfTen
    (e : Nat) : Binary64 :=
  (Decimal.toBinary64? false ⟨1, e⟩).getD (Binary64.zero false)

/- The greatest power of ten that is a double. -/
def greatestPower : Nat :=
  308

/-
  A double times a power of ten; there is none beyond the
  range of doubles.  A power too small for a double is taken
  in several steps, after three of which nothing is left.
-/
def scaleBy
    (x : Binary64)
    (e : Int) : Nat → Option Binary64
  | 0 =>
      some x
  | steps + 1 =>
      if e.natAbs ≤ greatestPower then
        if 0 ≤ e then
          x.mul? (powerOfTen e.natAbs)
        else
          x.div? (powerOfTen e.natAbs)
      else if x.isZero then
        some x
      else if 0 ≤ e then
        none
      else
        match x.div? (powerOfTen greatestPower) with
        | some y => scaleBy y (e + greatestPower) steps
        | none => none

/- A number of 64 bits times a power of ten, as a double. -/
def scale
    (negative : Bool)
    (value : Nat)
    (e : Int) : Option Binary64 :=
  match Binary64.ofRatio? false value 1 with
  | some x => (scaleBy x e 4).map (·.withSign negative)
  | none => none

------------------------------------------------------------
-- Integers
------------------------------------------------------------

/-
  A number of 64 bits with a sign: an integer, unless it is a
  negative zero or below the 64-bit range.
-/
def integer
    (negative : Bool)
    (value : Nat) : Json :=
  if !negative then
    .int value
  else if 0 < value ∧ value ≤ 0x8000000000000000 then
    .int (-(value : Int))
  else
    match Binary64.ofRatio? true value 1 with
    | some x => .float x
    | none => .float (Binary64.zero true)

end JsonNumber

end TreeWire
