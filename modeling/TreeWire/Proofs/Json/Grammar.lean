import TreeWire.Json.Basic
import TreeWire.Proofs.Text.Utf8

/-
  The grammar of JSON texts, as sequences of bytes, and the
  trees that they stand for.

  The grammar says nothing about how a text is read.  Blanks
  may stand around every value, key and mark.  A number is a
  literal with its own text; it is a float when it has a
  fraction or an exponent.  A string stands for the characters
  that its letters and escapes stand for, so its bytes are
  UTF-8 and no half of a surrogate pair stands alone.

  Key definitions include:
    * `Grammar.Number`
    * `Grammar.Quoted`
    * `Grammar.Value`
    * `Grammar.Document`

  Main statements:
    * `Grammar.letters_iff_contents`
-/

namespace TreeWire

namespace Grammar

------------------------------------------------------------
-- Blanks and Words
------------------------------------------------------------

/- Bytes that are all spaces, tabs or ends of lines. -/
def Blanks
    (bytes : List UInt8) : Prop :=
  ∀ b ∈ bytes, b = 0x20 ∨ b = 0x09 ∨ b = 0x0a ∨ b = 0x0d

/- The words of JSON, and what kind of literal each is. -/
def words : List (String × LiteralKind) :=
  [("true", .bool), ("false", .bool), ("null", .null)]

------------------------------------------------------------
-- Numbers
------------------------------------------------------------

/- Decimal digits, at least one. -/
def Digits
    (bytes : List UInt8) : Prop :=
  bytes ≠ [] ∧ ∀ b ∈ bytes, 0x30 ≤ b ∧ b ≤ 0x39

/- The digits before the point: a zero stands alone. -/
inductive Whole : List UInt8 → Prop where
  | zero :
      Whole [0x30]
  | digits
      {bytes : List UInt8}
      (hDigits : Digits bytes)
      (hFirst : bytes.head? ≠ some 0x30) :
      Whole bytes

/- A point and digits after it, or nothing. -/
inductive Fraction : List UInt8 → Prop where
  | none :
      Fraction []
  | digits
      {bytes : List UInt8}
      (hDigits : Digits bytes) :
      Fraction (0x2e :: bytes)

/- A mark, a sign or none, and digits; or nothing. -/
inductive Exponent : List UInt8 → Prop where
  | none :
      Exponent []
  | digits
      {mark : UInt8}
      {sign bytes : List UInt8}
      (hMark : mark = 0x65 ∨ mark = 0x45)
      (hSign : sign = [] ∨ sign = [0x2b] ∨ sign = [0x2d])
      (hDigits : Digits bytes) :
      Exponent (mark :: (sign ++ bytes))

/- A number and its kind. -/
inductive Number : List UInt8 → LiteralKind → Prop where
  | mk
      {sign whole fraction exponent : List UInt8}
      (hSign : sign = [] ∨ sign = [0x2d])
      (hWhole : Whole whole)
      (hFraction : Fraction fraction)
      (hExponent : Exponent exponent) :
      Number (sign ++ whole ++ fraction ++ exponent)
        (if fraction = [] ∧ exponent = [] then .int else .float)

------------------------------------------------------------
-- Strings
------------------------------------------------------------

/- A hexadecimal digit and its value. -/
inductive HexDigit : UInt8 → Nat → Prop where
  | digit
      {n : Nat}
      (h : n < 10) :
      HexDigit (UInt8.ofNat (0x30 + n)) n
  | small
      {n : Nat}
      (h : n < 6) :
      HexDigit (UInt8.ofNat (0x61 + n)) (10 + n)
  | capital
      {n : Nat}
      (h : n < 6) :
      HexDigit (UInt8.ofNat (0x41 + n)) (10 + n)

/- Four hexadecimal digits and their value. -/
inductive HexFour : List UInt8 → Nat → Prop where
  | mk
      {a b c d : UInt8}
      {w x y z : Nat}
      (ha : HexDigit a w)
      (hb : HexDigit b x)
      (hc : HexDigit c y)
      (hd : HexDigit d z) :
      HexFour [a, b, c, d] (16 * (16 * (16 * w + x) + y) + z)

/- The letters that stand for a character after a backslash. -/
def escapes : List (UInt8 × Char) :=
  [(0x22, '"'), (0x5c, '\\'), (0x2f, '/'), (0x62, Char.ofNat 8),
    (0x66, Char.ofNat 12), (0x6e, '\n'), (0x72, '\r'),
    (0x74, '\t')]

/-
  An escape and its character: a letter, a code point that is
  no half of a surrogate pair, or both halves of one.
-/
inductive Escape : List UInt8 → Char → Prop where
  | letter
      {b : UInt8}
      {c : Char}
      (h : (b, c) ∈ escapes) :
      Escape [0x5c, b] c
  | point
      {ds : List UInt8}
      {n : Nat}
      (hDigits : HexFour ds n)
      (hPoint : n < 0xd800 ∨ 0xdfff < n) :
      Escape (0x5c :: 0x75 :: ds) (Char.ofNat n)
  | pair
      {ds es : List UInt8}
      {high low : Nat}
      (hDigits : HexFour ds high)
      (hDigits' : HexFour es low)
      (hHigh : 0xd800 ≤ high ∧ high ≤ 0xdbff)
      (hLow : 0xdc00 ≤ low ∧ low ≤ 0xdfff) :
      Escape (0x5c :: 0x75 :: (ds ++ 0x5c :: 0x75 :: es))
        (Char.ofNat
          (0x10000 + (high - 0xd800) * 0x400 + (low - 0xdc00)))

/- The inside of a string and its characters. -/
inductive Letters : List UInt8 → List Char → Prop where
  | nil :
      Letters [] []
  | plain
      {c : Char}
      {bytes : List UInt8}
      {cs : List Char}
      (hQuote : c ≠ '"')
      (hBackslash : c ≠ '\\')
      (hControl : 0x20 ≤ c.toNat)
      (hRest : Letters bytes cs) :
      Letters (String.utf8EncodeChar c ++ bytes) (c :: cs)
  | escape
      {escaped bytes : List UInt8}
      {c : Char}
      {cs : List Char}
      (hEscape : Escape escaped c)
      (hRest : Letters bytes cs) :
      Letters (escaped ++ bytes) (c :: cs)

/- A string between quotation marks and its text. -/
inductive Quoted : List UInt8 → String → Prop where
  | mk
      {bytes : List UInt8}
      {text : String}
      (hLetters : Letters bytes text.toList) :
      Quoted (0x22 :: (bytes ++ [0x22])) text

------------------------------------------------------------
-- Values
------------------------------------------------------------

/- A literal. -/
inductive Scalar : List UInt8 → Literal → Prop where
  | word
      {text : String}
      {kind : LiteralKind}
      (h : (text, kind) ∈ words) :
      Scalar (utf8 text.toList) ⟨kind, text⟩
  | number
      {text : String}
      {kind : LiteralKind}
      (h : Number (utf8 text.toList) kind) :
      Scalar (utf8 text.toList) ⟨kind, text⟩
  | string
      {bytes : List UInt8}
      {text : String}
      (h : Quoted bytes text) :
      Scalar bytes ⟨.string, text⟩

mutual

/- A value and its tree. -/
inductive Value : List UInt8 → Json → Prop where
  | scalar
      {bytes : List UInt8}
      {lit : Literal}
      (h : Scalar bytes lit) :
      Value bytes (.literal lit)
  | emptyArray
      {blanks : List UInt8}
      (hBlanks : Blanks blanks) :
      Value (0x5b :: (blanks ++ [0x5d])) (.array [])
  | array
      {blanks first more : List UInt8}
      {item : Json}
      {items : List Json}
      (hBlanks : Blanks blanks)
      (hFirst : Value first item)
      (hMore : MoreElements more items) :
      Value (0x5b :: (blanks ++ first ++ more ++ [0x5d]))
        (.array (item :: items))
  | emptyObject
      {blanks : List UInt8}
      (hBlanks : Blanks blanks) :
      Value (0x7b :: (blanks ++ [0x7d])) (.object [])
  | object
      {first more : List UInt8}
      {key : String}
      {value : Json}
      {members : List (String × Json)}
      (hFirst : Member first key value)
      (hMore : MoreMembers more members) :
      Value (0x7b :: (first ++ more ++ [0x7d]))
        (.object ((key, value) :: members))

/- Elements after the first one, each after a comma. -/
inductive MoreElements : List UInt8 → List Json → Prop where
  | nil
      {blanks : List UInt8}
      (hBlanks : Blanks blanks) :
      MoreElements blanks []
  | cons
      {before after bytes more : List UInt8}
      {item : Json}
      {items : List Json}
      (hBefore : Blanks before)
      (hAfter : Blanks after)
      (hItem : Value bytes item)
      (hMore : MoreElements more items) :
      MoreElements (before ++ 0x2c :: (after ++ bytes ++ more))
        (item :: items)

/- A key and its value, after blanks. -/
inductive Member : List UInt8 → String → Json → Prop where
  | mk
      {blanks quoted before after bytes : List UInt8}
      {key : String}
      {value : Json}
      (hBlanks : Blanks blanks)
      (hKey : Quoted quoted key)
      (hBefore : Blanks before)
      (hAfter : Blanks after)
      (hValue : Value bytes value) :
      Member (blanks ++ quoted ++ before ++ 0x3a :: (after ++ bytes))
        key value

/- Members after the first one, each after a comma. -/
inductive MoreMembers :
    List UInt8 → List (String × Json) → Prop where
  | nil
      {blanks : List UInt8}
      (hBlanks : Blanks blanks) :
      MoreMembers blanks []
  | cons
      {before bytes more : List UInt8}
      {key : String}
      {value : Json}
      {members : List (String × Json)}
      (hBefore : Blanks before)
      (hMember : Member bytes key value)
      (hMore : MoreMembers more members) :
      MoreMembers (before ++ 0x2c :: (bytes ++ more))
        ((key, value) :: members)

end

/- A document: one value with blanks around it. -/
inductive Document : List UInt8 → Json → Prop where
  | mk
      {before bytes after : List UInt8}
      {j : Json}
      (hBefore : Blanks before)
      (hValue : Value bytes j)
      (hAfter : Blanks after) :
      Document (before ++ bytes ++ after) j

------------------------------------------------------------
-- Bytes of Numbers
------------------------------------------------------------

theorem Digits.ascii
    {bytes : List UInt8}
    (h : Digits bytes) :
    ∀ b ∈ bytes, b < 0x80 := fun b hMem =>
  UInt8.lt_of_le_of_lt (h.2 b hMem).2 (by decide)

theorem Whole.ascii
    {bytes : List UInt8}
    (h : Whole bytes) :
    ∀ b ∈ bytes, b < 0x80 := by
  cases h with
  | zero => exact List.forall_mem_singleton.mpr (by decide)
  | digits hDigits _ => exact hDigits.ascii

theorem Fraction.ascii
    {bytes : List UInt8}
    (h : Fraction bytes) :
    ∀ b ∈ bytes, b < 0x80 := by
  cases h with
  | none => exact nofun
  | digits hDigits =>
      rw [List.forall_mem_cons]
      exact ⟨by decide, hDigits.ascii⟩

theorem Exponent.ascii
    {bytes : List UInt8}
    (h : Exponent bytes) :
    ∀ b ∈ bytes, b < 0x80 := by
  cases h with
  | none => exact nofun
  | digits hMark hSign hDigits =>
      rw [List.forall_mem_cons, List.forall_mem_append]
      refine ⟨?_, ?_, hDigits.ascii⟩
      · rcases hMark with rfl | rfl <;> decide
      · rcases hSign with rfl | rfl | rfl
        · exact nofun
        · exact List.forall_mem_singleton.mpr (by decide)
        · exact List.forall_mem_singleton.mpr (by decide)

/- The bytes of a number are all ASCII. -/
theorem Number.ascii
    {bytes : List UInt8}
    {kind : LiteralKind}
    (h : Number bytes kind) :
    ∀ b ∈ bytes, b < 0x80 := by
  cases h with
  | mk hSign hWhole hFraction hExponent =>
      rw [List.forall_mem_append, List.forall_mem_append,
        List.forall_mem_append]
      refine ⟨⟨⟨?_, hWhole.ascii⟩, hFraction.ascii⟩,
        hExponent.ascii⟩
      rcases hSign with rfl | rfl
      · exact nofun
      · exact List.forall_mem_singleton.mpr (by decide)

/- An integer has no part behind its whole digits. -/
theorem Number.int_cases
    {bytes : List UInt8}
    (h : Number bytes .int) :
    Whole bytes ∨ ∃ whole, bytes = 0x2d :: whole ∧ Whole whole := by
  generalize hKind : LiteralKind.int = kind at h
  cases h with
  | @mk sign whole fraction exponent hSign hWhole _ _ =>
      by_cases hParts : fraction = [] ∧ exponent = []
      · rcases hParts with ⟨rfl, rfl⟩
        rw [List.append_nil, List.append_nil]
        rcases hSign with rfl | rfl
        · exact .inl hWhole
        · exact .inr ⟨whole, rfl, hWhole⟩
      · rw [if_neg hParts] at hKind
        cases hKind

------------------------------------------------------------
-- Strings Byte by Byte
------------------------------------------------------------

/-
  The inside of a string and the bytes that it stands for,
  whether they are UTF-8 or not.
-/
inductive Contents : List UInt8 → List UInt8 → Prop where
  | nil :
      Contents [] []
  | byte
      {b : UInt8}
      {bytes out : List UInt8}
      (hQuote : b ≠ 0x22)
      (hBackslash : b ≠ 0x5c)
      (hControl : 0x20 ≤ b)
      (hRest : Contents bytes out) :
      Contents (b :: bytes) (b :: out)
  | escape
      {escaped bytes out : List UInt8}
      {c : Char}
      (hEscape : Escape escaped c)
      (hRest : Contents bytes out) :
      Contents (escaped ++ bytes) (String.utf8EncodeChar c ++ out)

/- The bytes of a plain character are plain bytes. -/
theorem Contents.plain
    {c : Char}
    {bytes out : List UInt8}
    (hQuote : c ≠ '"')
    (hBackslash : c ≠ '\\')
    (hControl : 0x20 ≤ c.toNat)
    (hRest : Contents bytes out) :
    Contents (String.utf8EncodeChar c ++ bytes)
      (String.utf8EncodeChar c ++ out) := by
  rcases utf8EncodeChar_cases c with ⟨hLow, hOne⟩ | ⟨_, hHigh⟩
  · have hNat : (UInt8.ofNat c.toNat).toNat = c.toNat :=
      UInt8.toNat_ofNat_of_lt' (Nat.lt_trans hLow (by decide))
    rw [hOne]
    apply Contents.byte _ _ _ hRest
    · intro hEq
      rw [hEq] at hNat
      exact hQuote (Char.toNat_inj.mp hNat.symm)
    · intro hEq
      rw [hEq] at hNat
      exact hBackslash (Char.toNat_inj.mp hNat.symm)
    · rw [UInt8.le_iff_toNat_le, hNat]
      exact hControl
  · generalize String.utf8EncodeChar c = plain at hHigh
    induction plain with
    | nil => exact hRest
    | cons b plain ih =>
        have hByte := hHigh b (by simp)
        rw [UInt8.le_iff_toNat_le] at hByte
        apply Contents.byte _ _ _
          (ih fun b' hMem => hHigh b' (by simp [hMem]))
        · intro hEq
          subst hEq
          exact absurd hByte (by decide)
        · intro hEq
          subst hEq
          exact absurd hByte (by decide)
        · rw [UInt8.le_iff_toNat_le]
          exact Nat.le_trans (by decide) hByte

theorem Letters.contents
    {bytes : List UInt8}
    {cs : List Char}
    (h : Letters bytes cs) :
    Contents bytes (utf8 cs) := by
  induction h with
  | nil => exact .nil
  | plain hQuote hBackslash hControl _ ih =>
      rw [utf8_cons]
      exact .plain hQuote hBackslash hControl ih
  | escape hEscape _ ih =>
      rw [utf8_cons]
      exact .escape hEscape ih

/-
  Bytes that continue a character cannot come from an escape,
  which stands for a whole character.
-/
theorem Contents.split_continuation
    {bytes more out : List UInt8}
    (hMore : ∀ b ∈ more, ¬ b.IsUTF8FirstByte)
    (h : Contents bytes (more ++ out)) :
    ∃ rest, bytes = more ++ rest ∧ Contents rest out := by
  induction more generalizing bytes with
  | nil => exact ⟨bytes, rfl, h⟩
  | cons b more ih =>
      generalize hOut : b :: more ++ out = all at h
      cases h with
      | nil => cases hOut
      | byte _ _ _ hRest =>
          cases hOut
          rcases ih (fun b' hMem => hMore b' (by simp [hMem])) hRest
            with ⟨rest, rfl, hContents⟩
          exact ⟨rest, rfl, hContents⟩
      | @escape _ _ _ c _ _ =>
          rcases utf8EncodeChar_eq_cons c with
            ⟨b', bs, hBytes, hFirst, _⟩
          rw [hBytes] at hOut
          rw [(List.cons.inj hOut).1] at hMore
          exact absurd hFirst (hMore b' (by simp))

/-
  Bytes that stand for UTF-8 are letters.  The induction is on
  the characters: the first one is an escape, or all of its
  bytes are plain.
-/
theorem Contents.letters
    {bytes : List UInt8}
    {cs : List Char}
    (h : Contents bytes (utf8 cs)) :
    Letters bytes cs := by
  induction cs generalizing bytes with
  | nil =>
      generalize hOut : utf8 [] = out at h
      cases h with
      | nil => exact .nil
      | byte => cases hOut
      | escape => simp at hOut
  | cons c cs ih =>
      generalize hOut : utf8 (c :: cs) = out at h
      rw [utf8_cons] at hOut
      cases h with
      | nil => simp at hOut
      | @byte b bytes out hQuote hBackslash hControl hRest =>
          rcases utf8EncodeChar_eq_cons c with
            ⟨b', more, hBytes, _, hMore⟩
          rw [hBytes] at hOut
          cases hOut
          rcases hRest.split_continuation hMore with
            ⟨rest, rfl, hContents⟩
          have hPlain := ih hContents
          rw [show b :: (more ++ rest) =
            String.utf8EncodeChar c ++ rest by rw [hBytes]; rfl]
          apply Letters.plain _ _ _ hPlain
          · intro hEq
            subst hEq
            cases hBytes
            exact hQuote rfl
          · intro hEq
            subst hEq
            cases hBytes
            exact hBackslash rfl
          · rcases utf8EncodeChar_cases c with
              ⟨hLow, hOne⟩ | ⟨hHigh, _⟩
            · rw [hOne] at hBytes
              cases hBytes
              rwa [UInt8.le_iff_toNat_le,
                UInt8.toNat_ofNat_of_lt'
                  (Nat.lt_trans hLow (by decide))] at hControl
            · exact Nat.le_trans (by decide) hHigh
      | escape hEscape hRest =>
          rcases utf8EncodeChar_append_inj hOut with ⟨rfl, rfl⟩
          exact .escape hEscape (ih hRest)

/-
  The letters of a string are the bytes that stand for UTF-8.
-/
theorem letters_iff_contents
    {bytes : List UInt8}
    {cs : List Char} :
    Letters bytes cs ↔ Contents bytes (utf8 cs) :=
  ⟨Letters.contents, Contents.letters⟩

end Grammar

end TreeWire
