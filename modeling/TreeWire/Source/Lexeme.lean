import TreeWire.Source.Cursor
import TreeWire.Token

/-
  The lexemes of JSON: words, numbers and strings.

  Key definitions include:
    * `Lexeme.word`
    * `Lexeme.number`
    * `Lexeme.string`
-/

namespace TreeWire

namespace Lexeme

------------------------------------------------------------
-- Bytes
------------------------------------------------------------

/- Whether a byte is a blank of JSON. -/
def isBlankByte
    (byte : UInt8) : Bool :=
  byte == 0x20 || byte == 0x09 || byte == 0x0a || byte == 0x0d

/- Whether a byte is a decimal digit. -/
def isDigitByte
    (byte : UInt8) : Bool :=
  0x30 ≤ byte && byte ≤ 0x39

/- The value of a hexadecimal digit. -/
def hexValue?
    (byte : UInt8) : Option Nat :=
  if 0x30 ≤ byte && byte ≤ 0x39 then some (byte.toNat - 0x30)
  else if 0x61 ≤ byte && byte ≤ 0x66 then some (byte.toNat - 0x57)
  else if 0x41 ≤ byte && byte ≤ 0x46 then some (byte.toNat - 0x37)
  else none

/- The text of ASCII bytes. -/
def asciiText
    (bytes : List UInt8) : String :=
  String.ofList (bytes.map fun b => Char.ofNat b.toNat)

/- The text of bytes in UTF-8, if they are valid. -/
def utf8Text?
    (bytes : List UInt8) : Option String :=
  String.fromUTF8? ⟨bytes.toArray⟩

/- Read blanks and look at the byte after them. -/
def blanks : Lexing (Option UInt8) := do
  let _ ← Cursor.takeWhile isBlankByte
  Cursor.peek

------------------------------------------------------------
-- Words
------------------------------------------------------------

/- Read the bytes of a word one by one. -/
def expectBytes
    (failure : Lexing Unit) :
    List UInt8 → Lexing Unit
  | [] =>
      pure ()
  | expected :: rest => do
      if (← Cursor.bump) = some expected then
        expectBytes failure rest
      else
        failure

/- Read one of the words of JSON. -/
def word
    (text : String)
    (kind : LiteralKind) : Lexing Literal := do
  let start ← Cursor.place
  expectBytes
    (Cursor.malformed
      ("invalid literal, expected `" ++ text ++ "`") start)
    text.toUTF8.toList
  pure ⟨kind, text⟩

------------------------------------------------------------
-- Numbers
------------------------------------------------------------

/- Read the next byte if it satisfies a test. -/
def takeIf
    (test : UInt8 → Bool) : Lexing (List UInt8) := do
  match ← Cursor.peek with
  | some byte =>
      if test byte then
        let _ ← Cursor.bump
        pure [byte]
      else
        pure []
  | none =>
      pure []

/- Read digits, at least one. -/
def digits
    (message : String)
    (start : Position) : Lexing (List UInt8) := do
  match ← Cursor.peek with
  | some byte =>
      if isDigitByte byte then
        Cursor.takeWhile isDigitByte
      else
        Cursor.malformed message start
  | none =>
      Cursor.malformed message start

/- Read the digits before the point; a zero stands alone. -/
def wholePart
    (start : Position) : Lexing (List UInt8) := do
  if (← Cursor.peek) = some 0x30 then
    takeIf (· == 0x30)
  else
    digits "invalid number: missing digits" start

/- Read a point and the digits after it, or nothing. -/
def fraction
    (start : Position) : Lexing (List UInt8) := do
  match ← takeIf (· == 0x2e) with
  | [] =>
      pure []
  | point =>
      let ds ← digits
        "invalid number: expected digits after '.'" start
      pure (point ++ ds)

/- Read an exponent, or nothing. -/
def exponent
    (start : Position) : Lexing (List UInt8) := do
  match ← takeIf (fun b => b == 0x65 || b == 0x45) with
  | [] =>
      pure []
  | mark =>
      let sign ← takeIf (fun b => b == 0x2b || b == 0x2d)
      let ds ← digits
        "invalid number: expected exponent digits" start
      pure (mark ++ sign ++ ds)

/-
  Read a number.  It is a float when it has a fraction or an
  exponent.
-/
def number : Lexing Literal := do
  let start ← Cursor.place
  let sign ← takeIf (· == 0x2d)
  let whole ← wholePart start
  let part ← fraction start
  let power ← exponent start
  let kind :=
    if part.isEmpty && power.isEmpty then
      LiteralKind.int
    else
      LiteralKind.float
  pure ⟨kind, asciiText (sign ++ whole ++ part ++ power)⟩

------------------------------------------------------------
-- Strings
------------------------------------------------------------

/-
  Read hexadecimal digits into a number; `place` is where the
  escape started.
-/
def hexNumber
    (place : Position)
    (value : Nat) :
    Nat → Lexing Nat
  | 0 =>
      pure value
  | count + 1 => do
      match (← Cursor.bump).bind hexValue? with
      | some digit =>
          hexNumber place (16 * value + digit) count
      | none =>
          Cursor.malformed "invalid \\u escape" place

/- The message for half of a surrogate pair. -/
def unpaired
    {α : Type}
    (place : Position) : Lexing α :=
  Cursor.malformed "unpaired surrogate in \\u escape" place

/-
  Read the second half of a surrogate pair, its backslash
  included.
-/
def lowSurrogate
    (place : Position) : Lexing Nat := do
  if (← Cursor.bump) ≠ some 0x5c then
    unpaired place
  else if (← Cursor.bump) ≠ some 0x75 then
    unpaired place
  else
    let low ← hexNumber place 0 4
    if 0xdc00 ≤ low ∧ low ≤ 0xdfff then
      pure low
    else
      unpaired place

/- Read an escape by code point, from after its letter. -/
def unicodeEscape
    (place : Position) : Lexing Char := do
  let first ← hexNumber place 0 4
  if 0xd800 ≤ first ∧ first ≤ 0xdbff then
    let low ← lowSurrogate place
    pure (Char.ofNat
      (0x10000 + (first - 0xd800) * 0x400 + (low - 0xdc00)))
  else if 0xdc00 ≤ first ∧ first ≤ 0xdfff then
    unpaired place
  else
    pure (Char.ofNat first)

/- Read an escape, from after its backslash. -/
def escape
    (place : Position) : Lexing Char := do
  match ← Cursor.bump with
  | some 0x22 => pure '"'
  | some 0x5c => pure '\\'
  | some 0x2f => pure '/'
  | some 0x62 => pure (Char.ofNat 8)
  | some 0x66 => pure (Char.ofNat 12)
  | some 0x6e => pure '\n'
  | some 0x72 => pure '\r'
  | some 0x74 => pure '\t'
  | some 0x75 => unicodeEscape place
  | _ => Cursor.malformed "invalid escape sequence" place

/-
  Read the rest of a string up to its closing mark, after the
  bytes `done`, latest first.  The last argument is the input
  that was ahead when the string began: every round reads at
  least one of its bytes.
-/
def stringBytes
    (start : Position)
    (done : List UInt8) :
    List UInt8 → Lexing (List UInt8)
  | [] => do
      let _ ← Cursor.peek
      Cursor.malformed "unterminated string" start
  | _ :: rounds => do
      let place ← Cursor.place
      match ← Cursor.bump with
      | none =>
          Cursor.malformed "unterminated string" start
      | some byte =>
          if byte = 0x22 then
            pure done.reverse
          else if byte = 0x5c then
            let c ← escape place
            let bytes := String.utf8EncodeChar c
            stringBytes start (bytes.reverse ++ done) rounds
          else if byte < 0x20 then
            Cursor.malformed "control character in string" place
          else
            stringBytes start (byte :: done) rounds

/- Read a string, from its opening mark. -/
def string : Lexing String := do
  let start ← Cursor.place
  let _ ← Cursor.bump
  let bytes ← stringBytes start [] (← Cursor.ahead)
  match utf8Text? bytes with
  | some text => pure text
  | none => Cursor.malformed "invalid UTF-8 in string" start

end Lexeme

end TreeWire
