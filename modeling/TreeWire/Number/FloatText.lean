import TreeWire.Number.IntText
import TreeWire.Number.Shortest

/-
  Decimal texts of doubles.

  A double is written with the fewest digits that read back,
  in plain notation when its first digit stands between the
  fifth place after the point and the sixteenth before it, and
  in exponent notation otherwise.  A text is read as the
  nearest double.

  Key definitions include:
    * `FloatLayout`
    * `Binary64.text`
    * `Decimal.read?`
    * `readFloat?`
-/

namespace TreeWire

------------------------------------------------------------
-- Layout
------------------------------------------------------------

/-
  Where plain notation ends: the least and the greatest
  exponent of the first digit that it shows.
-/
structure FloatLayout where
  leastPlain : Int
  greatestPlain : Int
  deriving DecidableEq, Repr

/-
  Floats are plain from 0.00001 up to sixteen digits before
  the point.
-/
def floatLayout : FloatLayout :=
  ⟨-5, 15⟩

namespace Decimal

/- The exponent of the first digit. -/
def leading
    (d : Decimal) : Int :=
  d.exponent + d.digits.length - 1

/-
  Plain notation, always with a digit on both sides of the
  point.
-/
def plain
    (d : Decimal) : List Char :=
  let ds := d.digits
  let e := d.leading
  if e < 0 then
    ['0', '.'] ++ List.replicate (-e - 1).toNat '0' ++ ds
  else
    let n := e.toNat + 1
    let whole := ds.take n ++ List.replicate (n - ds.length) '0'
    let part := ds.drop n
    whole ++ '.' :: (if part.isEmpty then ['0'] else part)

/-
  Exponent notation: one digit before the point, a point only
  if more digits follow, and a signed exponent.
-/
def scientific
    (d : Decimal) : List Char :=
  let e := d.leading
  let sign := if e < 0 then '-' else '+'
  let part := d.digits.drop 1
  d.digits.take 1 ++ (if part.isEmpty then [] else '.' :: part)
    ++ ['e', sign] ++ Nat.toDigits 10 e.natAbs

/- A positive decimal in the notation of a layout. -/
def write
    (layout : FloatLayout)
    (d : Decimal) : List Char :=
  if layout.leastPlain ≤ d.leading
      ∧ d.leading ≤ layout.greatestPlain then
    d.plain
  else
    d.scientific

end Decimal

namespace Binary64

/- The text of a double. -/
def text
    (x : Binary64) : String :=
  let body :=
    if x.isZero then
      ['0', '.', '0']
    else
      x.shortest.write floatLayout
  String.ofList (if x.negative then '-' :: body else body)

end Binary64

------------------------------------------------------------
-- Reading
------------------------------------------------------------

namespace Decimal

/- The exponent part of a number: nothing, or a mark, a sign
  or none, and digits to the end. -/
def readExponent? :
    List Char → Option Int
  | [] =>
      some 0
  | mark :: cs =>
      if mark = 'e' ∨ mark = 'E' then
        match cs with
        | '-' :: ds =>
            if isDigits ds then
              some (-(digitsValue ds : Int))
            else
              none
        | '+' :: ds =>
            if isDigits ds then some (digitsValue ds) else none
        | ds =>
            if isDigits ds then some (digitsValue ds) else none
      else
        none

/-
  An unsigned decimal number: digits with a point or without
  one, at least one digit in all, and an exponent or none.
-/
def read?
    (cs : List Char) : Option Decimal :=
  let whole := cs.takeWhile Char.isDigit
  let rest := cs.dropWhile Char.isDigit
  let (part, tail) :=
    match rest with
    | '.' :: ds =>
        (ds.takeWhile Char.isDigit, ds.dropWhile Char.isDigit)
    | ds =>
        ([], ds)
  if whole.isEmpty && part.isEmpty then
    none
  else
    match readExponent? tail with
    | some e =>
        some ⟨digitsValue (whole ++ part), e - part.length⟩
    | none =>
        none

/-
  The double nearest to a decimal.  The first digit tells
  numbers beyond the range of doubles apart before any power
  of ten is taken.
-/
def toBinary64?
    (negative : Bool)
    (d : Decimal) : Option Binary64 :=
  if d.coefficient = 0 then
    some (Binary64.zero negative)
  else if 310 < d.leading then
    none
  else if d.leading < -330 then
    some (Binary64.zero negative)
  else
    let (up, down) := powerOfTen d.exponent
    Binary64.ofRatio? negative (d.coefficient * up) down

end Decimal

/-
  The finite double a text stands for: a decimal number, after
  a sign or not.
-/
def readFloat?
    (text : String) : Option Binary64 :=
  let (negative, body) :=
    match text.toList with
    | '-' :: cs => (true, cs)
    | '+' :: cs => (false, cs)
    | cs => (false, cs)
  match Decimal.read? body with
  | some d => d.toBinary64? negative
  | none => none

end TreeWire
