/-
  Decimal texts of integers.

  Key definitions include:
    * `digitsValue`
    * `intText`
    * `hexDigits`
    * `readNat?`
    * `readInt?`
    * `readInt64?`
-/

namespace TreeWire

------------------------------------------------------------
-- Digits
------------------------------------------------------------

/- Whether a text holds ASCII digits only, and at least one. -/
def isDigits
    (cs : List Char) : Bool :=
  !cs.isEmpty && cs.all Char.isDigit

/- The value of a decimal digit. -/
def digitValue
    (c : Char) : Nat :=
  c.toNat - '0'.toNat

/- The number that decimal digits stand for. -/
def digitsValue
    (cs : List Char) : Nat :=
  cs.foldl (fun n c => 10 * n + digitValue c) 0

------------------------------------------------------------
-- Writing
------------------------------------------------------------

/- The decimal text of an integer. -/
def intText
    (n : Int) : String :=
  match n with
  | .ofNat m => String.ofList (Nat.toDigits 10 m)
  | .negSucc m => String.ofList ('-' :: Nat.toDigits 10 (m + 1))

/- The hexadecimal digits of a number, in small letters. -/
def hexDigits
    (n : Nat) : List Char :=
  Nat.toDigits 16 n

------------------------------------------------------------
-- Reading
------------------------------------------------------------

/-
  The natural number a text stands for: digits, after a plus
  sign or not.
-/
def readNat?
    (text : String) : Option Nat :=
  let digits :=
    match text.toList with
    | '+' :: cs => cs
    | cs => cs
  if isDigits digits then some (digitsValue digits) else none

/-
  The integer a text stands for: digits, after a sign or not.
-/
def readInt?
    (text : String) : Option Int :=
  match text.toList with
  | '-' :: cs =>
      if isDigits cs then
        some (-(digitsValue cs : Int))
      else
        none
  | _ =>
      (readNat? text).map Int.ofNat

/- The 64-bit integer a text stands for, if it is in range. -/
def readInt64?
    (text : String) : Option Int64 :=
  match readInt? text with
  | some n =>
      if -0x8000000000000000 ≤ n ∧ n < 0x8000000000000000 then
        some (Int64.ofInt n)
      else
        none
  | none =>
      none

end TreeWire
