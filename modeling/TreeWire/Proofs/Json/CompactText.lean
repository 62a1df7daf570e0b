import TreeWire.Proofs.Json.Printing

/-
  Compact texts have no control characters.

  The grammar lets none into a literal: the digits and marks of
  a number stand higher, and a control character in a string has
  to be escaped.  A compact text has nothing but literals, keys
  and marks, so it has no control character anywhere.  A line
  feed is one, and so a compact text is a line of its own.

  Key definitions include:
    * `Json.Unbroken`

  Main statements:
    * `Grammar.Scalar.noControl`
    * `Json.unbroken_writeCompact`
-/

namespace TreeWire

namespace Grammar

------------------------------------------------------------
-- Bytes of Literals
------------------------------------------------------------

theorem blank_le_ofNat_iff
    {n : Nat}
    (h : n < 0x100) :
    0x20 ≤ UInt8.ofNat n ↔ 0x20 ≤ n := by
  rw [UInt8.le_iff_toNat_le, UInt8.toNat_ofNat_of_lt' h]
  exact Iff.rfl

/- Bytes of which none is a control character. -/
def NoControl
    (bytes : List UInt8) : Prop :=
  ∀ b ∈ bytes, 0x20 ≤ b

theorem noControl_nil :
    NoControl [] :=
  List.forall_mem_nil _

theorem noControl_append
    {bs cs : List UInt8}
    (hLeft : NoControl bs)
    (hRight : NoControl cs) :
    NoControl (bs ++ cs) :=
  List.forall_mem_append.mpr ⟨hLeft, hRight⟩

theorem noControl_cons
    {b : UInt8}
    {bs : List UInt8}
    (hByte : 0x20 ≤ b)
    (hRest : NoControl bs) :
    NoControl (b :: bs) :=
  List.forall_mem_cons.mpr ⟨hByte, hRest⟩

theorem Digits.noControl
    {bytes : List UInt8}
    (h : Digits bytes) :
    NoControl bytes := fun b hMem =>
  UInt8.le_trans (by decide) (h.2 b hMem).1

/- No byte of a number is a control character. -/
theorem Number.noControl
    {bytes : List UInt8}
    {kind : LiteralKind}
    (h : Number bytes kind) :
    NoControl bytes := by
  cases h with
  | mk hSign hWhole hFraction hExponent =>
      refine noControl_append (noControl_append
        (noControl_append ?_ ?_) ?_) ?_
      · rcases hSign with rfl | rfl
        · exact noControl_nil
        · exact noControl_cons (by decide) noControl_nil
      · cases hWhole with
        | zero => exact noControl_cons (by decide) noControl_nil
        | digits hDigits _ => exact hDigits.noControl
      · cases hFraction with
        | none => exact noControl_nil
        | digits hDigits =>
            exact noControl_cons (by decide) hDigits.noControl
      · cases hExponent with
        | none => exact noControl_nil
        | digits hMark hSign hDigits =>
            refine noControl_cons ?_
              (noControl_append ?_ hDigits.noControl)
            · rcases hMark with rfl | rfl <;> decide
            · rcases hSign with rfl | rfl | rfl
              · exact noControl_nil
              · exact noControl_cons (by decide) noControl_nil
              · exact noControl_cons (by decide) noControl_nil

theorem HexDigit.noControl
    {b : UInt8}
    {n : Nat}
    (h : HexDigit b n) :
    0x20 ≤ b := by
  cases h with
  | digit h => exact (blank_le_ofNat_iff (by omega)).mpr (by omega)
  | small h => exact (blank_le_ofNat_iff (by omega)).mpr (by omega)
  | capital h => exact (blank_le_ofNat_iff (by omega)).mpr (by omega)

theorem HexFour.noControl
    {bytes : List UInt8}
    {n : Nat}
    (h : HexFour bytes n) :
    NoControl bytes := by
  cases h with
  | mk ha hb hc hd =>
      exact noControl_cons ha.noControl (noControl_cons hb.noControl
        (noControl_cons hc.noControl
          (noControl_cons hd.noControl noControl_nil)))

/- No byte of an escape is a control character. -/
theorem Escape.noControl
    {bytes : List UInt8}
    {c : Char}
    (h : Escape bytes c) :
    NoControl bytes := by
  cases h with
  | letter hMem =>
      have hAll : ∀ e ∈ escapes, (0x20 : UInt8) ≤ e.1 := by decide
      exact noControl_cons (by decide)
        (noControl_cons (hAll _ hMem) noControl_nil)
  | point hDigits _ =>
      exact noControl_cons (by decide)
        (noControl_cons (by decide) hDigits.noControl)
  | pair hDigits hDigits' _ _ =>
      exact noControl_cons (by decide) (noControl_cons (by decide)
        (noControl_append hDigits.noControl
          (noControl_cons (by decide)
            (noControl_cons (by decide) hDigits'.noControl))))

/- A character that is no control character, as bytes. -/
theorem noControl_utf8EncodeChar
    {c : Char}
    (h : 0x20 ≤ c.toNat) :
    NoControl (String.utf8EncodeChar c) := by
  rcases utf8EncodeChar_cases c with ⟨hLow, hOne⟩ | ⟨_, hHigh⟩
  · rw [hOne]
    exact noControl_cons ((blank_le_ofNat_iff (by omega)).mpr h)
      noControl_nil
  · intro b hMem
    exact UInt8.le_trans (by decide) (hHigh b hMem)

theorem Letters.noControl
    {bytes : List UInt8}
    {cs : List Char}
    (h : Letters bytes cs) :
    NoControl bytes := by
  induction h with
  | nil => exact noControl_nil
  | plain _ _ hControl _ ih =>
      exact noControl_append (noControl_utf8EncodeChar hControl) ih
  | escape hEscape _ ih =>
      exact noControl_append hEscape.noControl ih

theorem Quoted.noControl
    {bytes : List UInt8}
    {text : String}
    (h : Quoted bytes text) :
    NoControl bytes := by
  cases h with
  | mk hLetters =>
      exact noControl_cons (by decide)
        (noControl_append hLetters.noControl
          (noControl_cons (by decide) noControl_nil))

/- No byte of a literal is a control character. -/
theorem Scalar.noControl
    {bytes : List UInt8}
    {lit : Literal}
    (h : Scalar bytes lit) :
    NoControl bytes := by
  cases h with
  | word hMem =>
      have hAll :
          (words.all fun w =>
            (utf8 w.1.toList).all fun b => decide (0x20 ≤ b)) =
              true := by
        decide
      have hWord := List.all_eq_true.mp hAll _ hMem
      exact fun b hByte =>
        of_decide_eq_true (List.all_eq_true.mp hWord b hByte)
  | number hNumber => exact hNumber.noControl
  | string hQuoted => exact hQuoted.noControl

end Grammar

------------------------------------------------------------
-- Characters of Compact Texts
------------------------------------------------------------

namespace Json

open Grammar

/- Characters of which none is a control character. -/
def Unbroken
    (cs : List Char) : Prop :=
  ∀ c ∈ cs, 0x20 ≤ c.toNat

theorem unbroken_nil :
    Unbroken [] :=
  List.forall_mem_nil _

theorem unbroken_append
    {cs ds : List Char}
    (hLeft : Unbroken cs)
    (hRight : Unbroken ds) :
    Unbroken (cs ++ ds) :=
  List.forall_mem_append.mpr ⟨hLeft, hRight⟩

theorem unbroken_cons
    {c : Char}
    {cs : List Char}
    (hChar : 0x20 ≤ c.toNat)
    (hRest : Unbroken cs) :
    Unbroken (c :: cs) :=
  List.forall_mem_cons.mpr ⟨hChar, hRest⟩

/- Control characters are the same in bytes. -/
theorem unbroken_of_noControl
    {cs : List Char}
    (h : NoControl (utf8 cs)) :
    Unbroken cs := by
  intro c hMem
  refine Nat.le_of_not_lt fun hLow => ?_
  have hByte :
      String.utf8EncodeChar c = [UInt8.ofNat c.toNat] :=
    utf8EncodeChar_ascii (by omega)
  have hControl : 0x20 ≤ UInt8.ofNat c.toNat := by
    apply h
    rw [utf8, List.mem_flatMap]
    exact ⟨c, hMem, by rw [hByte]; exact List.mem_singleton_self _⟩
  rw [blank_le_ofNat_iff (by omega)] at hControl
  omega

theorem unbroken_writeString
    (s : String) :
    Unbroken (writeString s) :=
  unbroken_of_noControl (writeString_quoted s).noControl

mutual

/- A compact text has no control character. -/
theorem unbroken_writeCompact :
    ∀ j : Json, Spelled j.tokens → Unbroken j.writeCompact
  | .literal lit, h =>
      unbroken_of_noControl (h lit (by simp [tokens])).noControl
  | .array items, h => by
      rw [tokens, spelled_cons_iff (by simp),
        spelled_append_iff] at h
      exact unbroken_cons (by decide)
        (unbroken_append (unbroken_writeCompactItems items h.1)
          (unbroken_cons (by decide) unbroken_nil))
  | .object members, h => by
      rw [tokens, spelled_cons_iff (by simp),
        spelled_append_iff] at h
      exact unbroken_cons (by decide)
        (unbroken_append (unbroken_writeCompactMembers members h.1)
          (unbroken_cons (by decide) unbroken_nil))

theorem unbroken_writeCompactItems :
    ∀ items : List Json, Spelled (itemTokens items) →
      Unbroken (writeCompactItems items)
  | [], _ => unbroken_nil
  | [item], h => by
      rw [itemTokens, spelled_append_iff] at h
      exact unbroken_writeCompact item h.1
  | item :: next :: items, h => by
      rw [itemTokens, spelled_append_iff] at h
      exact unbroken_append (unbroken_writeCompact item h.1)
        (unbroken_cons (by decide)
          (unbroken_writeCompactItems (next :: items) h.2))

theorem unbroken_writeCompactMembers :
    ∀ members : List (String × Json),
      Spelled (memberTokens members) →
        Unbroken (writeCompactMembers members)
  | [], _ => unbroken_nil
  | [(key, value)], h => by
      rw [memberTokens, spelled_cons_iff (by simp),
        spelled_append_iff] at h
      exact unbroken_append (unbroken_writeString key)
        (unbroken_cons (by decide)
          (unbroken_writeCompact value h.1))
  | (key, value) :: next :: members, h => by
      rw [memberTokens, spelled_cons_iff (by simp),
        spelled_append_iff] at h
      exact unbroken_append (unbroken_writeString key)
        (unbroken_cons (by decide)
          (unbroken_append (unbroken_writeCompact value h.1)
            (unbroken_cons (by decide)
              (unbroken_writeCompactMembers (next :: members) h.2))))

end

end Json

end TreeWire
