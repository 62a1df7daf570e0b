import TreeWire.Source.Lexeme

/-
  Texts as bytes in UTF-8.

  The first byte of a character never looks like one of the
  bytes that continue a character, so a sequence of bytes is
  cut into characters in one way only.

  Main statements:
    * `toUTF8_toList`
    * `utf8Text?_eq_some_iff`
    * `utf8_injective`
    * `utf8EncodeChar_append_inj`
    * `utf8EncodeChar_cases`
-/

namespace TreeWire

------------------------------------------------------------
-- Bytes of Characters
------------------------------------------------------------

/- The bytes of characters in UTF-8. -/
def utf8
    (cs : List Char) : List UInt8 :=
  cs.flatMap String.utf8EncodeChar

@[simp] theorem utf8_nil :
    utf8 [] = [] :=
  rfl

@[simp] theorem utf8_cons
    (c : Char)
    (cs : List Char) :
    utf8 (c :: cs) = String.utf8EncodeChar c ++ utf8 cs :=
  List.flatMap_cons

@[simp] theorem utf8_append
    (cs ds : List Char) :
    utf8 (cs ++ ds) = utf8 cs ++ utf8 ds :=
  List.flatMap_append

/- The character with a valid code point has that code point. -/
theorem char_toNat_ofNat
    {n : Nat}
    (h : n.isValidChar) :
    (Char.ofNat n).toNat = n := by
  unfold Char.ofNat
  rw [dif_pos h]
  rfl

/- A byte made from a number below 256 that is 128 or more. -/
theorem high_le_ofNat
    {n : Nat}
    (hLow : 0x80 ≤ n)
    (hHigh : n < 0x100) :
    0x80 ≤ UInt8.ofNat n := by
  rw [UInt8.le_iff_toNat_le, UInt8.toNat_ofNat_of_lt' hHigh]
  exact hLow

/-
  A character is one byte below 128, or several bytes that are
  all 128 or more.
-/
theorem utf8EncodeChar_cases
    (c : Char) :
    (c.toNat < 0x80 ∧
        String.utf8EncodeChar c = [UInt8.ofNat c.toNat]) ∨
      (0x80 ≤ c.toNat ∧
        ∀ b ∈ String.utf8EncodeChar c, 0x80 ≤ b) := by
  fun_cases String.utf8EncodeChar c with
  | case1 v hv =>
      left
      exact ⟨Nat.lt_succ_of_le hv, rfl⟩
  | case2 v h₁ h₂ =>
      right
      refine ⟨Nat.lt_of_not_le h₁, ?_⟩
      simp only [List.mem_cons, List.not_mem_nil, or_false]
      rintro b (rfl | rfl) <;>
        exact high_le_ofNat (by omega) (by omega)
  | case3 v h₁ h₂ h₃ =>
      right
      refine ⟨Nat.lt_of_not_le h₁, ?_⟩
      simp only [List.mem_cons, List.not_mem_nil, or_false]
      rintro b (rfl | rfl | rfl) <;>
        exact high_le_ofNat (by omega) (by omega)
  | case4 v h₁ h₂ h₃ =>
      right
      refine ⟨Nat.lt_of_not_le h₁, ?_⟩
      simp only [List.mem_cons, List.not_mem_nil, or_false]
      rintro b (rfl | rfl | rfl | rfl) <;>
        exact high_le_ofNat (by omega) (by omega)

theorem utf8EncodeChar_ascii
    {c : Char}
    (h : c.toNat < 0x80) :
    String.utf8EncodeChar c = [UInt8.ofNat c.toNat] := by
  rcases utf8EncodeChar_cases c with ⟨_, hOne⟩ | ⟨hHigh, _⟩
  · exact hOne
  · omega

theorem utf8_cons_ascii
    {c : Char}
    (cs : List Char)
    (h : c.toNat < 0x80) :
    utf8 (c :: cs) = UInt8.ofNat c.toNat :: utf8 cs := by
  rw [utf8_cons, utf8EncodeChar_ascii h, List.singleton_append]

/- The same bytes ahead are the same character. -/
theorem utf8EncodeChar_append_inj
    {c d : Char}
    {bs cs : List UInt8}
    (h : String.utf8EncodeChar c ++ bs =
      String.utf8EncodeChar d ++ cs) :
    c = d ∧ bs = cs := by
  have hDecode :
      ∀ (c : Char) (bs : List UInt8),
        ByteArray.utf8DecodeChar?
          (String.utf8EncodeChar c ++ bs).toByteArray 0 =
            some c := by
    intro c bs
    rw [List.toByteArray_append]
    exact ByteArray.utf8DecodeChar?_utf8EncodeChar_append
  have hChar : c = d := by
    have hc := hDecode c bs
    rw [h, hDecode d cs] at hc
    exact (Option.some.inj hc).symm
  subst hChar
  exact ⟨rfl, List.append_cancel_left h⟩

/- Different characters have different bytes. -/
theorem utf8_injective
    {cs ds : List Char}
    (h : utf8 cs = utf8 ds) :
    cs = ds := by
  induction cs generalizing ds with
  | nil =>
      cases ds with
      | nil => rfl
      | cons d ds => simp at h
  | cons c cs ih =>
      cases ds with
      | nil => simp at h
      | cons d ds =>
          rw [utf8_cons, utf8_cons] at h
          rcases utf8EncodeChar_append_inj h with ⟨hChar, hRest⟩
          rw [hChar, ih hRest]

------------------------------------------------------------
-- First Bytes
------------------------------------------------------------

/- A character has a first byte and bytes that continue it. -/
theorem utf8EncodeChar_eq_cons
    (c : Char) :
    ∃ b bs,
      String.utf8EncodeChar c = b :: bs ∧
        b.IsUTF8FirstByte ∧ ∀ b' ∈ bs, ¬ b'.IsUTF8FirstByte := by
  have hFirst :
      ∀ (i : Nat) (hi : i < (String.utf8EncodeChar c).length),
        ((String.utf8EncodeChar c).get ⟨i, hi⟩).IsUTF8FirstByte ↔
          i = 0 := fun i hi =>
    UInt8.isUTF8FirstByte_getElem_utf8EncodeChar
  cases hBytes : String.utf8EncodeChar c with
  | nil => exact absurd hBytes String.utf8EncodeChar_ne_nil
  | cons b bs =>
      rw [hBytes] at hFirst
      refine ⟨b, bs, rfl, (hFirst 0 (by simp)).mpr rfl, ?_⟩
      intro b' hMem hFirst'
      rcases List.get_of_mem hMem with ⟨i, rfl⟩
      have := (hFirst (i.val + 1) (by simp)).mp hFirst'
      omega

------------------------------------------------------------
-- Bytes of Texts
------------------------------------------------------------

theorem byteArray_toList_loop
    (bytes : ByteArray)
    (i : Nat)
    (done : List UInt8) :
    ByteArray.toList.loop bytes i done =
      done.reverse ++ bytes.data.toList.drop i := by
  fun_induction ByteArray.toList.loop bytes i done with
  | case1 i done hi ih =>
      have hi' : i < bytes.data.toList.length := by
        simpa using hi
      have hByte : bytes.get! i = bytes.data.toList[i] :=
        getElem!_pos bytes.data i hi
      rw [ih, hByte, List.drop_eq_getElem_cons hi',
        List.reverse_cons, List.append_assoc,
        List.singleton_append]
  | case2 i done hi =>
      have hi' : bytes.data.toList.length ≤ i := by
        simpa using hi
      rw [List.drop_eq_nil_of_le hi', List.append_nil]

theorem byteArray_toList
    (bytes : ByteArray) :
    bytes.toList = bytes.data.toList :=
  byteArray_toList_loop bytes 0 []

/- The bytes of a text are those of its characters. -/
theorem toUTF8_toList
    (s : String) :
    s.toUTF8.toList = utf8 s.toList := by
  rcases s.exists_eq_ofList with ⟨cs, rfl⟩
  rw [byteArray_toList, String.toUTF8_eq_toByteArray,
    String.toByteArray_ofList, String.toList_ofList]
  exact List.toList_data_toByteArray

/- A text is read from its own bytes, and from no others. -/
theorem utf8Text?_eq_some_iff
    {bytes : List UInt8}
    {s : String} :
    Lexeme.utf8Text? bytes = some s ↔ bytes = utf8 s.toList := by
  have hArray :
      (⟨bytes.toArray⟩ : ByteArray) = s.toByteArray ↔
        bytes = utf8 s.toList := by
    rw [← toUTF8_toList, byteArray_toList,
      String.toUTF8_eq_toByteArray]
    constructor
    · intro h
      rw [← h]
    · intro hEq
      subst hEq
      rfl
  rw [← hArray]
  unfold Lexeme.utf8Text? String.fromUTF8?
  split
  · rename_i hValid
    rw [Option.some_inj]
    constructor
    · intro hEq
      subst hEq
      rfl
    · intro h
      exact String.toByteArray_inj.mp h
  · rename_i hValid
    constructor
    · intro h
      cases h
    · intro h
      rw [h] at hValid
      exact absurd s.isValidUTF8 hValid

end TreeWire
