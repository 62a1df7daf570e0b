import TreeWire.Proofs.Json.Grammar
import TreeWire.Proofs.Source.Cursor

/-
  The lexemes that a cursor reads, against the grammar.

  Each lexing is described by the bytes that it moves over
  when it succeeds.  Words and strings end by themselves; a
  number ends where no byte goes on with it.

  Main statements:
    * `Lexeme.blanks_eq_ok_iff`
    * `Lexeme.word_eq_ok_iff`
    * `Lexeme.number_sound`
    * `Lexeme.number_complete`
    * `Lexeme.string_eq_ok_iff`
-/

namespace TreeWire

open Grammar

namespace Lexeme

variable {c c' : Cursor}

------------------------------------------------------------
-- Blanks and Words
------------------------------------------------------------

theorem isBlankByte_iff
    {b : UInt8} :
    isBlankByte b = true ↔
      b = 0x20 ∨ b = 0x09 ∨ b = 0x0a ∨ b = 0x0d := by
  simp [isBlankByte, or_assoc]

/- Blanks are read as far as they go. -/
theorem blanks_eq_ok_iff
    {next : Option UInt8} :
    blanks c = (.ok next, c') ↔
      ∃ used,
        c.Reads used c' ∧ Blanks used ∧
          next = c'.unread.head? ∧
          (∀ b, next = some b → isBlankByte b = false) ∧
          c'.Clear := by
  unfold blanks
  rw [Action.bind_eq_ok_iff]
  constructor
  · intro hParts
    rcases hParts with ⟨used, c₁, hTake, hPeek⟩
    rcases Cursor.peek_eq_ok_iff.mp hPeek with ⟨rfl, rfl, _⟩
    rcases Cursor.takeWhile_eq_ok_iff.mp hTake with
      ⟨hReads, hUsed, hEnd, hClear⟩
    exact ⟨used, hReads,
      fun b hMem => isBlankByte_iff.mp (hUsed b hMem), rfl, hEnd,
      hClear⟩
  · intro hParts
    rcases hParts with ⟨used, hReads, hBlanks, rfl, hEnd, hClear⟩
    refine ⟨used, c', Cursor.takeWhile_eq_ok_iff.mpr
      ⟨hReads, ?_, hEnd, hClear⟩, ?_⟩
    · exact fun b hMem => isBlankByte_iff.mpr (hBlanks b hMem)
    · exact Cursor.peek_eq_ok_iff.mpr ⟨rfl, rfl, hClear⟩

theorem expectBytes_eq_ok_iff
    {message : String}
    {place : Position}
    {bytes : List UInt8} :
    expectBytes (Cursor.malformed message place) bytes c =
        (.ok (), c') ↔
      c.Reads bytes c' := by
  induction bytes generalizing c with
  | nil =>
      rw [Cursor.Reads.nil_iff]
      constructor
      · intro h
        cases h
        rfl
      · intro hEq
        subst hEq
        rfl
  | cons b bytes ih =>
      rw [expectBytes, Action.bind_eq_ok_iff,
        Cursor.Reads.cons_iff]
      constructor
      · intro hParts
        rcases hParts with ⟨next, c₁, hBump, h⟩
        split at h
        · rename_i hNext
          subst hNext
          exact ⟨c₁, Cursor.bump_some_iff.mp hBump, ih.mp h⟩
        · exact absurd h Cursor.malformed_ne_ok
      · intro hParts
        rcases hParts with ⟨c₁, hByte, hRest⟩
        refine ⟨some b, c₁, Cursor.bump_some_iff.mpr hByte, ?_⟩
        rw [if_pos rfl]
        exact ih.mpr hRest

/- A word is read byte by byte. -/
theorem word_eq_ok_iff
    {text : String}
    {kind : LiteralKind}
    {lit : Literal} :
    word text kind c = (.ok lit, c') ↔
      lit = ⟨kind, text⟩ ∧ c.Reads (utf8 text.toList) c' := by
  unfold word
  rw [toUTF8_toList, Action.bind_eq_ok_iff]
  constructor
  · intro hParts
    rcases hParts with ⟨place, c₁, hPlace, h⟩
    cases hPlace
    rcases Action.bind_eq_ok_iff.mp h with ⟨_, c₂, hBytes, h⟩
    cases h
    exact ⟨rfl, expectBytes_eq_ok_iff.mp hBytes⟩
  · intro hParts
    rcases hParts with ⟨rfl, hReads⟩
    refine ⟨c.position, c, rfl, ?_⟩
    exact Action.bind_eq_ok_iff.mpr
      ⟨(), c', expectBytes_eq_ok_iff.mpr hReads, rfl⟩

------------------------------------------------------------
-- Numbers
------------------------------------------------------------

theorem isDigitByte_iff
    {b : UInt8} :
    isDigitByte b = true ↔ 0x30 ≤ b ∧ b ≤ 0x39 := by
  simp [isDigitByte]

/- One byte is read if it satisfies the test. -/
theorem takeIf_eq_ok_iff
    {test : UInt8 → Bool}
    {taken : List UInt8} :
    takeIf test c = (.ok taken, c') ↔
      c.Clear ∧ c.Reads taken c' ∧
        ((∃ b, taken = [b] ∧ test b = true) ∨
          taken = [] ∧
            ∀ b, c.unread.head? = some b → test b = false) := by
  unfold takeIf
  rw [Action.bind_eq_ok_iff]
  constructor
  · intro hParts
    rcases hParts with ⟨next, c₁, hPeek, h⟩
    rcases Cursor.peek_eq_ok_iff.mp hPeek with ⟨rfl, rfl, hClear⟩
    refine ⟨hClear, ?_⟩
    cases hHead : c₁.unread.head? with
    | none =>
        rw [hHead] at h
        cases h
        exact ⟨Cursor.Reads.nil_iff.mpr rfl, .inr ⟨rfl, nofun⟩⟩
    | some b =>
        rw [hHead] at h
        by_cases hTest : test b = true
        · simp only [if_pos hTest] at h
          rcases Action.bind_eq_ok_iff.mp h with
            ⟨next, c₂, hBump, h⟩
          cases h
          have hReads := Cursor.bump_of_head? hHead hBump
          exact ⟨hReads, .inl ⟨b, rfl, hTest⟩⟩
        · simp only [if_neg hTest] at h
          cases h
          refine ⟨Cursor.Reads.nil_iff.mpr rfl, .inr ⟨rfl, ?_⟩⟩
          intro b' hEq
          cases hEq
          simpa using hTest
  · intro hParts
    rcases hParts with ⟨hClear, hReads, hCase⟩
    refine ⟨_, c, Cursor.peek_eq_ok_iff.mpr ⟨rfl, rfl, hClear⟩, ?_⟩
    rcases hCase with ⟨b, rfl, hTest⟩ | ⟨rfl, hTest⟩
    · simp only [hReads.head?_unread, hTest, if_true]
      exact Action.bind_eq_ok_iff.mpr
        ⟨_, c', Cursor.bump_some_iff.mpr hReads, rfl⟩
    · cases Cursor.Reads.nil_iff.mp hReads
      cases hHead : c.unread.head? with
      | none => rfl
      | some b =>
          simp only [hTest b hHead]
          rfl

/- Digits are read as far as they go. -/
theorem digits_eq_ok_iff
    {message : String}
    {place : Position}
    {ds : List UInt8} :
    digits message place c = (.ok ds, c') ↔
      c.Reads ds c' ∧ Digits ds ∧
        (∀ b, c'.unread.head? = some b → isDigitByte b = false) ∧
        c'.Clear := by
  unfold digits
  rw [Action.bind_eq_ok_iff]
  constructor
  · intro hParts
    rcases hParts with ⟨next, c₁, hPeek, h⟩
    rcases Cursor.peek_eq_ok_iff.mp hPeek with ⟨rfl, rfl, _⟩
    cases hHead : c₁.unread.head? with
    | none =>
        rw [hHead] at h
        exact absurd h Cursor.malformed_ne_ok
    | some b =>
        rw [hHead] at h
        by_cases hDigit : isDigitByte b = true
        · simp only [if_pos hDigit] at h
          rcases Cursor.takeWhile_eq_ok_iff.mp h with
            ⟨hReads, hTaken, hEnd, hClear⟩
          refine ⟨hReads, ⟨?_, ?_⟩, hEnd, hClear⟩
          · intro hEq
            subst hEq
            cases Cursor.Reads.nil_iff.mp hReads
            rw [hEnd b hHead] at hDigit
            cases hDigit
          · exact fun b hMem => isDigitByte_iff.mp (hTaken b hMem)
        · simp only [if_neg hDigit] at h
          exact absurd h Cursor.malformed_ne_ok
  · intro hParts
    rcases hParts with ⟨hReads, ⟨hSome, hDigits⟩, hEnd, hClear⟩
    cases ds with
    | nil => exact absurd rfl hSome
    | cons d ds =>
        have hDigit : isDigitByte d = true :=
          isDigitByte_iff.mpr (hDigits d (by simp))
        refine ⟨some d, c, Cursor.peek_eq_ok_iff.mpr
          ⟨rfl, hReads.head?_unread.symm, hReads.clear hClear⟩, ?_⟩
        simp only [hDigit, if_true]
        exact Cursor.takeWhile_eq_ok_iff.mpr
          ⟨hReads,
            fun b hMem => isDigitByte_iff.mpr (hDigits b hMem),
            hEnd, hClear⟩

theorem wholePart_sound
    {place : Position}
    {ds : List UInt8}
    (h : wholePart place c = (.ok ds, c')) :
    c.Reads ds c' ∧ Whole ds := by
  unfold wholePart at h
  rcases Action.bind_eq_ok_iff.mp h with ⟨next, c₁, hPeek, h⟩
  rcases Cursor.peek_eq_ok_iff.mp hPeek with ⟨rfl, rfl, _⟩
  by_cases hZero : c₁.unread.head? = some 0x30
  · simp only [if_pos hZero] at h
    rcases takeIf_eq_ok_iff.mp h with ⟨_, hReads, hCase⟩
    rcases hCase with ⟨b, rfl, hTest⟩ | ⟨rfl, hTest⟩
    · cases beq_iff_eq.mp hTest
      exact ⟨hReads, .zero⟩
    · exact absurd (hTest _ hZero) (by decide)
  · simp only [if_neg hZero] at h
    rcases digits_eq_ok_iff.mp h with ⟨hReads, hDigits, _, _⟩
    refine ⟨hReads, .digits hDigits ?_⟩
    intro hHead
    apply hZero
    rw [hReads.unread, List.head?_append, hHead]
    rfl

theorem wholePart_complete
    {place : Position}
    {ds : List UInt8}
    (hReads : c.Reads ds c')
    (hWhole : Whole ds)
    (hEnd :
      ∀ b, c'.unread.head? = some b → isDigitByte b = false)
    (hClear : c'.Clear) :
    wholePart place c = (.ok ds, c') := by
  refine Action.bind_eq_ok_iff.mpr ⟨_, c,
    Cursor.peek_eq_ok_iff.mpr ⟨rfl, rfl, hReads.clear hClear⟩, ?_⟩
  cases hWhole with
  | zero =>
      simp only [if_pos hReads.head?_unread]
      exact takeIf_eq_ok_iff.mpr
        ⟨hReads.clear hClear, hReads, .inl ⟨_, rfl, rfl⟩⟩
  | digits hDigits hFirst =>
      have hZero : c.unread.head? ≠ some 0x30 := by
        cases ds with
        | nil => exact absurd rfl hDigits.1
        | cons d ds =>
            rw [hReads.head?_unread]
            exact hFirst
      simp only [if_neg hZero]
      exact digits_eq_ok_iff.mpr ⟨hReads, hDigits, hEnd, hClear⟩

theorem fraction_sound
    {place : Position}
    {ds : List UInt8}
    (h : fraction place c = (.ok ds, c')) :
    c.Reads ds c' ∧ Fraction ds := by
  unfold fraction at h
  rcases Action.bind_eq_ok_iff.mp h with ⟨point, c₁, hPoint, h⟩
  rcases takeIf_eq_ok_iff.mp hPoint with ⟨_, hReads, hCase⟩
  rcases hCase with ⟨b, rfl, hTest⟩ | ⟨rfl, _⟩
  · cases beq_iff_eq.mp hTest
    rcases Action.bind_eq_ok_iff.mp h with ⟨more, c₂, hDigits, h⟩
    cases h
    rcases digits_eq_ok_iff.mp hDigits with ⟨hMore, hDigits, _, _⟩
    exact ⟨hReads.append hMore, .digits hDigits⟩
  · cases h
    exact ⟨hReads, .none⟩

theorem fraction_complete
    {place : Position}
    {ds : List UInt8}
    (hReads : c.Reads ds c')
    (hFraction : Fraction ds)
    (hEnd :
      ∀ b, c'.unread.head? = some b →
        isDigitByte b = false ∧ b ≠ 0x2e)
    (hClear : c'.Clear) :
    fraction place c = (.ok ds, c') := by
  unfold fraction
  have hClear₀ := hReads.clear hClear
  cases hFraction with
  | none =>
      cases Cursor.Reads.nil_iff.mp hReads
      refine Action.bind_eq_ok_iff.mpr ⟨[], c,
        takeIf_eq_ok_iff.mpr ⟨hClear, hReads, .inr ⟨rfl, ?_⟩⟩, rfl⟩
      intro b hHead
      simpa using (hEnd b hHead).2
  | digits hDigits =>
      rcases Cursor.Reads.cons_iff.mp hReads with
        ⟨c₁, hPoint, hMore⟩
      refine Action.bind_eq_ok_iff.mpr ⟨[0x2e], c₁,
        takeIf_eq_ok_iff.mpr
          ⟨hClear₀, hPoint, .inl ⟨_, rfl, rfl⟩⟩, ?_⟩
      exact Action.bind_eq_ok_iff.mpr ⟨_, c',
        digits_eq_ok_iff.mpr
          ⟨hMore, hDigits, fun b hHead => (hEnd b hHead).1, hClear⟩,
        rfl⟩

theorem exponent_sound
    {place : Position}
    {ds : List UInt8}
    (h : exponent place c = (.ok ds, c')) :
    c.Reads ds c' ∧ Exponent ds := by
  unfold exponent at h
  rcases Action.bind_eq_ok_iff.mp h with ⟨mark, c₁, hMark, h⟩
  rcases takeIf_eq_ok_iff.mp hMark with ⟨_, hReads, hCase⟩
  rcases hCase with ⟨b, rfl, hTest⟩ | ⟨rfl, _⟩
  · rcases Action.bind_eq_ok_iff.mp h with ⟨sign, c₂, hSign, h⟩
    rcases Action.bind_eq_ok_iff.mp h with ⟨more, c₃, hDigits, h⟩
    cases h
    rcases takeIf_eq_ok_iff.mp hSign with ⟨_, hReads₂, hCase⟩
    rcases digits_eq_ok_iff.mp hDigits with ⟨hMore, hDigits, _, _⟩
    refine ⟨(hReads.append hReads₂).append hMore, ?_⟩
    apply Exponent.digits _ _ hDigits
    · simpa using hTest
    · rcases hCase with ⟨b', rfl, hTest'⟩ | ⟨rfl, _⟩
      · simpa using hTest'
      · exact .inl rfl
  · cases h
    exact ⟨hReads, .none⟩

/- Digits do not start with a sign. -/
theorem digits_head_no_sign
    {ds : List UInt8}
    {b : UInt8}
    (hDigits : Digits ds)
    (hReads : c.Reads ds c')
    (hHead : c.unread.head? = some b) :
    (b == 0x2b || b == 0x2d) = false := by
  cases ds with
  | nil => exact absurd rfl hDigits.1
  | cons d ds =>
      rw [hReads.head?_unread] at hHead
      cases hHead
      have hDigit := (hDigits.2 b (by simp)).1
      rw [UInt8.le_iff_toNat_le] at hDigit
      rw [Bool.or_eq_false_iff, beq_eq_false_iff_ne,
        beq_eq_false_iff_ne]
      constructor
      · intro hEq
        subst hEq
        exact absurd hDigit (by decide)
      · intro hEq
        subst hEq
        exact absurd hDigit (by decide)

theorem exponent_complete
    {place : Position}
    {ds : List UInt8}
    (hReads : c.Reads ds c')
    (hExponent : Exponent ds)
    (hEnd :
      ∀ b, c'.unread.head? = some b →
        isDigitByte b = false ∧ b ≠ 0x65 ∧ b ≠ 0x45)
    (hClear : c'.Clear) :
    exponent place c = (.ok ds, c') := by
  unfold exponent
  have hClear₀ := hReads.clear hClear
  cases hExponent with
  | none =>
      cases Cursor.Reads.nil_iff.mp hReads
      refine Action.bind_eq_ok_iff.mpr ⟨[], c,
        takeIf_eq_ok_iff.mpr ⟨hClear, hReads, .inr ⟨rfl, ?_⟩⟩, rfl⟩
      intro b hHead
      simpa using (hEnd b hHead).2
  | @digits mark sign bytes hMark hSign hDigits =>
      rcases Cursor.Reads.cons_iff.mp hReads with
        ⟨c₁, hFirst, hReads₁⟩
      rcases Cursor.Reads.append_iff.mp hReads₁ with
        ⟨c₂, hReads₂, hMore⟩
      refine Action.bind_eq_ok_iff.mpr ⟨[mark], c₁,
        takeIf_eq_ok_iff.mpr
          ⟨hClear₀, hFirst, .inl ⟨_, rfl, by simpa using hMark⟩⟩, ?_⟩
      refine Action.bind_eq_ok_iff.mpr ⟨sign, c₂,
        takeIf_eq_ok_iff.mpr
          ⟨hReads₁.clear hClear, hReads₂, ?_⟩, ?_⟩
      · rcases hSign with rfl | rfl | rfl
        · refine .inr ⟨rfl, ?_⟩
          intro b hHead
          exact digits_head_no_sign hDigits hReads₁ hHead
        · exact .inl ⟨_, rfl, rfl⟩
        · exact .inl ⟨_, rfl, rfl⟩
      · refine Action.bind_eq_ok_iff.mpr ⟨bytes, c',
          digits_eq_ok_iff.mpr
            ⟨hMore, hDigits, fun b hHead => (hEnd b hHead).1,
              hClear⟩, ?_⟩
        rfl

/- No byte that could go on with a number comes next. -/
def NumberEnds
    (rest : List UInt8) : Prop :=
  ∀ b, rest.head? = some b →
    isDigitByte b = false ∧ b ≠ 0x2e ∧ b ≠ 0x65 ∧ b ≠ 0x45

/- The text of ASCII bytes has these bytes. -/
theorem utf8_asciiText
    {bytes : List UInt8}
    (h : ∀ b ∈ bytes, b < 0x80) :
    utf8 (asciiText bytes).toList = bytes := by
  rw [asciiText, String.toList_ofList]
  induction bytes with
  | nil => rfl
  | cons b bytes ih =>
      rw [List.forall_mem_cons] at h
      have hByte : b.toNat < 0x80 := UInt8.lt_iff_toNat_lt.mp h.1
      have hChar : (Char.ofNat b.toNat).toNat = b.toNat :=
        char_toNat_ofNat (.inl (by omega))
      rw [List.map_cons, utf8_cons, ih h.2,
        utf8EncodeChar_ascii (by rw [hChar]; exact hByte), hChar,
        UInt8.ofNat_toNat, List.singleton_append]

/- No digit or point comes before what follows an exponent. -/
theorem exponent_head
    {power : List UInt8}
    (hPower : Exponent power)
    (hReads : c.Reads power c')
    (hEnd : NumberEnds c'.unread) :
    ∀ b, c.unread.head? = some b →
      isDigitByte b = false ∧ b ≠ 0x2e := by
  cases hPower with
  | none =>
      cases Cursor.Reads.nil_iff.mp hReads
      exact fun b hHead => ⟨(hEnd b hHead).1, (hEnd b hHead).2.1⟩
  | digits hMark _ _ =>
      rw [hReads.head?_unread]
      intro b hCase
      cases hCase
      rcases hMark with rfl | rfl <;> decide

/- No digit comes before what follows a fraction. -/
theorem fraction_head
    {part : List UInt8}
    (hPart : Fraction part)
    (hReads : c.Reads part c')
    (hEnd :
      ∀ b, c'.unread.head? = some b →
        isDigitByte b = false ∧ b ≠ 0x2e) :
    ∀ b, c.unread.head? = some b → isDigitByte b = false := by
  cases hPart with
  | none =>
      cases Cursor.Reads.nil_iff.mp hReads
      exact fun b hHead => (hEnd b hHead).1
  | digits _ =>
      rw [hReads.head?_unread]
      intro b hCase
      cases hCase
      decide

/- The digits before the point do not start with a minus. -/
theorem whole_head
    {whole : List UInt8}
    (hWhole : Whole whole)
    (hReads : c.Reads whole c') :
    ∀ b, c.unread.head? = some b → (b == 0x2d) = false := by
  cases hWhole with
  | zero =>
      rw [hReads.head?_unread]
      intro b hCase
      cases hCase
      decide
  | digits hDigits _ =>
      intro b hHead
      have hSign := digits_head_no_sign hDigits hReads hHead
      exact (Bool.or_eq_false_iff.mp hSign).2

/- What is read as a number is one. -/
theorem number_sound
    {lit : Literal}
    (h : number c = (.ok lit, c')) :
    ∃ used,
      c.Reads used c' ∧ used = utf8 lit.text.toList ∧
        Number used lit.kind := by
  unfold number at h
  rcases Action.bind_eq_ok_iff.mp h with ⟨place, c₀, hPlace, h⟩
  cases hPlace
  rcases Action.bind_eq_ok_iff.mp h with ⟨sign, c₁, hSign, h⟩
  rcases Action.bind_eq_ok_iff.mp h with ⟨whole, c₂, hWhole, h⟩
  rcases Action.bind_eq_ok_iff.mp h with ⟨part, c₃, hPart, h⟩
  rcases Action.bind_eq_ok_iff.mp h with ⟨power, c₄, hPower, h⟩
  rcases takeIf_eq_ok_iff.mp hSign with ⟨_, hReads, hSign⟩
  rcases wholePart_sound hWhole with ⟨hReads₁, hWhole⟩
  rcases fraction_sound hPart with ⟨hReads₂, hPart⟩
  rcases exponent_sound hPower with ⟨hReads₃, hPower⟩
  have hNumber : Number (sign ++ whole ++ part ++ power) _ :=
    .mk (by
      rcases hSign with ⟨b, rfl, hTest⟩ | ⟨rfl, _⟩
      · cases beq_iff_eq.mp hTest
        exact .inr rfl
      · exact .inl rfl) hWhole hPart hPower
  cases h
  refine ⟨_, ((hReads.append hReads₁).append hReads₂).append
    hReads₃, ?_, ?_⟩
  · exact (utf8_asciiText hNumber.ascii).symm
  · simpa only [Bool.and_eq_true, List.isEmpty_iff] using hNumber

/-
  A number is read as far as it goes, if what comes next could
  not go on with it.
-/
theorem number_complete
    {lit : Literal}
    (hReads : c.Reads (utf8 lit.text.toList) c')
    (hNumber : Number (utf8 lit.text.toList) lit.kind)
    (hEnd : NumberEnds c'.unread)
    (hClear : c'.Clear) :
    number c = (.ok lit, c') := by
  rcases lit with ⟨kind, text⟩
  have hAscii := utf8_asciiText hNumber.ascii
  have hText : asciiText (utf8 text.toList) = text :=
    String.toList_inj.mp (utf8_injective hAscii)
  generalize utf8 text.toList = used at *
  cases hNumber with
  | @mk sign whole part power hSign hWhole hPart hPower =>
      rcases Cursor.Reads.append_iff.mp hReads with
        ⟨c₃, hReads, hReads₃⟩
      rcases Cursor.Reads.append_iff.mp hReads with
        ⟨c₂, hReads, hReads₂⟩
      rcases Cursor.Reads.append_iff.mp hReads with
        ⟨c₁, hReads, hReads₁⟩
      have hClear₃ := hReads₃.clear hClear
      have hClear₂ := hReads₂.clear hClear₃
      have hClear₁ := hReads₁.clear hClear₂
      have hEnd₃ := exponent_head hPower hReads₃ hEnd
      have hEnd₂ := fraction_head hPart hReads₂ hEnd₃
      unfold number
      refine Action.bind_eq_ok_iff.mpr ⟨c.position, c, rfl, ?_⟩
      refine Action.bind_eq_ok_iff.mpr ⟨sign, c₁,
        takeIf_eq_ok_iff.mpr ⟨hReads.clear hClear₁, hReads, ?_⟩, ?_⟩
      · rcases hSign with rfl | rfl
        · cases Cursor.Reads.nil_iff.mp hReads
          exact .inr ⟨rfl, whole_head hWhole hReads₁⟩
        · exact .inl ⟨_, rfl, rfl⟩
      refine Action.bind_eq_ok_iff.mpr ⟨whole, c₂,
        wholePart_complete hReads₁ hWhole hEnd₂ hClear₂, ?_⟩
      refine Action.bind_eq_ok_iff.mpr ⟨part, c₃,
        fraction_complete hReads₂ hPart hEnd₃ hClear₃, ?_⟩
      refine Action.bind_eq_ok_iff.mpr ⟨power, c',
        exponent_complete hReads₃ hPower
          (fun b hHead => ⟨(hEnd b hHead).1, (hEnd b hHead).2.2⟩)
          hClear, ?_⟩
      rw [hText]
      simp only [Bool.and_eq_true, List.isEmpty_iff]
      rfl

------------------------------------------------------------
-- Escapes
------------------------------------------------------------

theorem hexValue?_eq_some_iff
    {b : UInt8}
    {n : Nat} :
    hexValue? b = some n ↔ HexDigit b n := by
  constructor
  · intro h
    have hByte :
        ∀ base m, base + m = b.toNat →
          UInt8.ofNat (base + m) = b := by
      intro base m hSum
      rw [hSum, UInt8.ofNat_toNat]
    unfold hexValue? at h
    simp only [Bool.and_eq_true, decide_eq_true_eq,
      UInt8.le_iff_toNat_le] at h
    change (if 48 ≤ b.toNat ∧ b.toNat ≤ 57 then _
      else if 97 ≤ b.toNat ∧ b.toNat ≤ 102 then _
      else if 65 ≤ b.toNat ∧ b.toNat ≤ 70 then _ else _) = _ at h
    split at h
    · cases h
      have hDigit := HexDigit.digit (n := b.toNat - 0x30) (by omega)
      rwa [hByte _ _ (by omega)] at hDigit
    · split at h
      · cases h
        have hDigit := HexDigit.small (n := b.toNat - 0x61)
          (by omega)
        rwa [hByte _ _ (by omega),
          show 10 + (b.toNat - 0x61) = b.toNat - 0x57 by omega]
          at hDigit
      · split at h
        · cases h
          have hDigit := HexDigit.capital (n := b.toNat - 0x41)
            (by omega)
          rwa [hByte _ _ (by omega),
            show 10 + (b.toNat - 0x41) = b.toNat - 0x37 by omega]
            at hDigit
        · cases h
  · intro h
    cases h with
    | @digit n h =>
        have hAll :
            ∀ n < 10, hexValue? (UInt8.ofNat (0x30 + n)) = some n := by
          decide
        exact hAll n h
    | @small n h =>
        have hAll :
            ∀ n < 6,
              hexValue? (UInt8.ofNat (0x61 + n)) = some (10 + n) := by
          decide
        exact hAll n h
    | @capital n h =>
        have hAll :
            ∀ n < 6,
              hexValue? (UInt8.ofNat (0x41 + n)) = some (10 + n) := by
          decide
        exact hAll n h

/- One more digit of a hexadecimal number. -/
theorem hexNumber_succ_eq_ok_iff
    {place : Position}
    {value count n : Nat} :
    hexNumber place value (count + 1) c = (.ok n, c') ↔
      ∃ b digit c₁,
        c.Reads [b] c₁ ∧ HexDigit b digit ∧
          hexNumber place (16 * value + digit) count c₁ =
            (.ok n, c') := by
  rw [hexNumber, Action.bind_eq_ok_iff]
  constructor
  · intro hParts
    rcases hParts with ⟨next, c₁, hBump, h⟩
    cases next with
    | none => exact absurd h Cursor.malformed_ne_ok
    | some b =>
        cases hDigit : hexValue? b with
        | none =>
            rw [Option.bind_some, hDigit] at h
            exact absurd h Cursor.malformed_ne_ok
        | some digit =>
            rw [Option.bind_some, hDigit] at h
            exact ⟨b, digit, c₁, Cursor.bump_some_iff.mp hBump,
              hexValue?_eq_some_iff.mp hDigit, h⟩
  · intro hParts
    rcases hParts with ⟨b, digit, c₁, hReads, hDigit, h⟩
    refine ⟨some b, c₁, Cursor.bump_some_iff.mpr hReads, ?_⟩
    rw [Option.bind_some, hexValue?_eq_some_iff.mpr hDigit]
    exact h

/- Four hexadecimal digits. -/
theorem hexNumber_four_eq_ok_iff
    {place : Position}
    {n : Nat} :
    hexNumber place 0 4 c = (.ok n, c') ↔
      ∃ ds, c.Reads ds c' ∧ HexFour ds n := by
  simp only [hexNumber_succ_eq_ok_iff]
  constructor
  · intro hParts
    rcases hParts with
      ⟨b₁, d₁, c₁, h₁, hDigit₁, b₂, d₂, c₂, h₂, hDigit₂, b₃, d₃, c₃,
        h₃, hDigit₃, b₄, d₄, c₄, h₄, hDigit₄, h⟩
    cases h
    refine ⟨[b₁, b₂, b₃, b₄], ((h₁.append h₂).append h₃).append h₄,
      ?_⟩
    rw [Nat.mul_zero, Nat.zero_add]
    exact .mk hDigit₁ hDigit₂ hDigit₃ hDigit₄
  · intro hParts
    rcases hParts with ⟨ds, hReads, hFour⟩
    cases hFour with
    | @mk b₁ b₂ b₃ b₄ d₁ d₂ d₃ d₄ hDigit₁ hDigit₂ hDigit₃ hDigit₄ =>
        rcases Cursor.Reads.cons_iff.mp hReads with ⟨c₁, h₁, hReads⟩
        rcases Cursor.Reads.cons_iff.mp hReads with ⟨c₂, h₂, hReads⟩
        rcases Cursor.Reads.cons_iff.mp hReads with ⟨c₃, h₃, h₄⟩
        refine ⟨b₁, d₁, c₁, h₁, hDigit₁, b₂, d₂, c₂, h₂, hDigit₂,
          b₃, d₃, c₃, h₃, hDigit₃, b₄, d₄, c', h₄, hDigit₄, ?_⟩
        rw [Nat.mul_zero, Nat.zero_add]
        rfl

theorem lowSurrogate_eq_ok_iff
    {place : Position}
    {n : Nat} :
    lowSurrogate place c = (.ok n, c') ↔
      (0xdc00 ≤ n ∧ n ≤ 0xdfff) ∧
        ∃ ds, c.Reads (0x5c :: 0x75 :: ds) c' ∧ HexFour ds n := by
  unfold lowSurrogate
  rw [Action.bind_eq_ok_iff]
  constructor
  · intro hParts
    rcases hParts with ⟨next, c₁, hBump, h⟩
    by_cases hFirst : next = some 0x5c
    · subst hFirst
      rw [if_neg (by simp)] at h
      rcases Action.bind_eq_ok_iff.mp h with ⟨next, c₂, hBump₂, h⟩
      by_cases hSecond : next = some 0x75
      · subst hSecond
        rw [if_neg (by simp)] at h
        rcases Action.bind_eq_ok_iff.mp h with ⟨low, c₃, hLow, h⟩
        rcases hexNumber_four_eq_ok_iff.mp hLow with
          ⟨ds, hReads, hFour⟩
        by_cases hRange : 0xdc00 ≤ low ∧ low ≤ 0xdfff
        · rw [if_pos hRange] at h
          cases h
          refine ⟨hRange, ds, ?_, hFour⟩
          exact (Cursor.bump_some_iff.mp hBump).append
            ((Cursor.bump_some_iff.mp hBump₂).append hReads)
        · rw [if_neg hRange] at h
          exact absurd h Cursor.malformed_ne_ok
      · rw [if_pos hSecond] at h
        exact absurd h Cursor.malformed_ne_ok
    · rw [if_pos hFirst] at h
      exact absurd h Cursor.malformed_ne_ok
  · intro hParts
    rcases hParts with ⟨hRange, ds, hReads, hFour⟩
    rcases Cursor.Reads.cons_iff.mp hReads with ⟨c₁, h₁, hReads⟩
    rcases Cursor.Reads.cons_iff.mp hReads with ⟨c₂, h₂, hReads⟩
    refine ⟨_, c₁, Cursor.bump_some_iff.mpr h₁, ?_⟩
    rw [if_neg (by simp)]
    refine Action.bind_eq_ok_iff.mpr
      ⟨_, c₂, Cursor.bump_some_iff.mpr h₂, ?_⟩
    rw [if_neg (by simp)]
    refine Action.bind_eq_ok_iff.mpr ⟨n, c',
      hexNumber_four_eq_ok_iff.mpr ⟨ds, hReads, hFour⟩, ?_⟩
    rw [if_pos hRange]
    rfl

/- An escape by code point, after its letter. -/
theorem unicodeEscape_eq_ok_iff
    {place : Position}
    {ch : Char} :
    unicodeEscape place c = (.ok ch, c') ↔
      ∃ bytes,
        c.Reads bytes c' ∧ Escape (0x5c :: 0x75 :: bytes) ch := by
  unfold unicodeEscape
  constructor
  · intro h
    rcases Action.bind_ok_branch h with
      ⟨first, c₁, branch, hFirst, hBranch, h⟩
    rcases hexNumber_four_eq_ok_iff.mp hFirst with
      ⟨ds, hReads, hFour⟩
    split at hBranch
    · rename_i hHigh
      subst hBranch
      rcases Action.bind_eq_ok_iff.mp h with ⟨low, c₂, hLow, h⟩
      rcases Prod.mk.inj h with ⟨hOk, rfl⟩
      rw [← Except.ok.inj hOk]
      rcases lowSurrogate_eq_ok_iff.mp hLow with
        ⟨hRange, es, hReads₂, hFour₂⟩
      exact ⟨_, hReads.append hReads₂,
        .pair hFour hFour₂ hHigh hRange⟩
    · split at hBranch
      · subst hBranch
        exact absurd h Cursor.malformed_ne_ok
      · subst hBranch
        cases h
        exact ⟨ds, hReads, .point hFour (by omega)⟩
  · intro hParts
    rcases hParts with ⟨bytes, hReads, hEscape⟩
    cases hEscape with
    | letter hMem => simp [escapes] at hMem
    | @point _ n hFour hPoint =>
        refine Action.bind_eq_ok_iff.mpr ⟨n, c',
          hexNumber_four_eq_ok_iff.mpr ⟨_, hReads, hFour⟩, ?_⟩
        rw [if_neg (by omega), if_neg (by omega)]
        rfl
    | @pair _ _ high low hFour hFour₂ hHigh hLow =>
        rcases Cursor.Reads.append_iff.mp hReads with
          ⟨c₁, hReads₁, hReads₂⟩
        refine Action.bind_eq_ok_iff.mpr ⟨high, c₁,
          hexNumber_four_eq_ok_iff.mpr ⟨_, hReads₁, hFour⟩, ?_⟩
        rw [if_pos hHigh]
        exact Action.bind_eq_ok_iff.mpr ⟨low, c',
          lowSurrogate_eq_ok_iff.mpr ⟨hLow, _, hReads₂, hFour₂⟩,
          rfl⟩

/- An escape, after its backslash. -/
theorem escape_eq_ok_iff
    {place : Position}
    {ch : Char} :
    escape place c = (.ok ch, c') ↔
      ∃ bytes, c.Reads bytes c' ∧ Escape (0x5c :: bytes) ch := by
  unfold escape
  constructor
  · intro h
    have hLetter :
        ∀ {b : UInt8} {c₁ : Cursor} {ch' : Char},
          Cursor.bump c = (.ok (some b), c₁) →
          (b, ch') ∈ escapes →
          (pure ch' : Lexing Char) c₁ = (.ok ch, c') →
          ∃ bytes,
            c.Reads bytes c' ∧ Escape (0x5c :: bytes) ch := by
      intro b c₁ ch' hBump hMem hPure
      cases hPure
      exact ⟨[b], Cursor.bump_some_iff.mp hBump, .letter hMem⟩
    rcases Action.bind_ok_branch h with
      ⟨next, c₁, branch, hBump, hBranch, h⟩
    split at hBranch
    case h_9 =>
      subst hBranch
      rcases unicodeEscape_eq_ok_iff.mp h with
        ⟨bytes, hReads, hEscape⟩
      exact ⟨0x75 :: bytes,
        (Cursor.bump_some_iff.mp hBump).append hReads, hEscape⟩
    case h_10 =>
      subst hBranch
      exact absurd h Cursor.malformed_ne_ok
    all_goals
      subst hBranch
      exact hLetter hBump (by decide) h
  · intro hParts
    rcases hParts with ⟨bytes, hReads, hEscape⟩
    cases bytes with
    | nil => cases hEscape
    | cons b bytes =>
        rcases Cursor.Reads.cons_iff.mp hReads with
          ⟨c₁, hByte, hRest⟩
        refine Action.bind_eq_ok_iff.mpr
          ⟨some b, c₁, Cursor.bump_some_iff.mpr hByte, ?_⟩
        cases hEscape with
        | letter hMem =>
            cases Cursor.Reads.nil_iff.mp hRest
            simp only [escapes, List.mem_cons, Prod.mk.injEq,
              List.not_mem_nil, or_false] at hMem
            rcases hMem with
              ⟨rfl, rfl⟩ | ⟨rfl, rfl⟩ | ⟨rfl, rfl⟩ | ⟨rfl, rfl⟩ |
              ⟨rfl, rfl⟩ | ⟨rfl, rfl⟩ | ⟨rfl, rfl⟩ | ⟨rfl, rfl⟩ <;>
              rfl
        | point hFour hPoint =>
            exact unicodeEscape_eq_ok_iff.mpr
              ⟨_, hRest, .point hFour hPoint⟩
        | pair hFour hFour₂ hHigh hLow =>
            exact unicodeEscape_eq_ok_iff.mpr
              ⟨_, hRest, .pair hFour hFour₂ hHigh hLow⟩

/- An escape starts with a backslash. -/
theorem escape_eq_cons
    {bytes : List UInt8}
    {ch : Char}
    (h : Escape bytes ch) :
    ∃ rest, bytes = 0x5c :: rest := by
  cases h with
  | letter => exact ⟨_, rfl⟩
  | point => exact ⟨_, rfl⟩
  | pair => exact ⟨_, rfl⟩

------------------------------------------------------------
-- Strings
------------------------------------------------------------

/-
  One round of a string: the closing mark, an escape or a
  plain byte.
-/
theorem stringBytes_cons_eq_ok_iff
    {start : Position}
    {done rounds bytes : List UInt8}
    {b₀ : UInt8} :
    stringBytes start done (b₀ :: rounds) c = (.ok bytes, c') ↔
      (c.Reads [0x22] c' ∧ bytes = done.reverse) ∨
      (∃ escaped ch c₁,
        c.Reads escaped c₁ ∧ Escape escaped ch ∧
          stringBytes start
              ((String.utf8EncodeChar ch).reverse ++ done)
              rounds c₁ =
            (.ok bytes, c')) ∨
      ∃ b c₁,
        c.Reads [b] c₁ ∧ (b ≠ 0x22 ∧ b ≠ 0x5c ∧ 0x20 ≤ b) ∧
          stringBytes start (b :: done) rounds c₁ =
            (.ok bytes, c') := by
  rw [stringBytes]
  constructor
  · intro h
    rcases Action.bind_eq_ok_iff.mp h with ⟨place, c₀, hPlace, h⟩
    cases hPlace
    rcases Action.bind_ok_branch h with
      ⟨next, c₁, branch, hBump, hBranch, h⟩
    split at hBranch
    · subst hBranch
      exact absurd h Cursor.malformed_ne_ok
    · rename_i b
      have hReads := Cursor.bump_some_iff.mp hBump
      split at hBranch
      · rename_i hQuote
        subst hBranch
        subst hQuote
        cases h
        exact .inl ⟨hReads, rfl⟩
      · rename_i hQuote
        split at hBranch
        · rename_i hBackslash
          subst hBranch
          subst hBackslash
          rcases Action.bind_eq_ok_iff.mp h with
            ⟨ch, c₂, hEscape, h⟩
          rcases escape_eq_ok_iff.mp hEscape with
            ⟨escaped, hReads₂, hEscape⟩
          exact .inr (.inl ⟨_, ch, c₂, hReads.append hReads₂,
            hEscape, h⟩)
        · rename_i hBackslash
          split at hBranch
          · subst hBranch
            exact absurd h Cursor.malformed_ne_ok
          · rename_i hControl
            subst hBranch
            exact .inr (.inr ⟨b, c₁, hReads,
              ⟨hQuote, hBackslash, UInt8.not_lt.mp hControl⟩, h⟩)
  · intro h
    refine Action.bind_eq_ok_iff.mpr ⟨c.position, c, rfl, ?_⟩
    rcases h with
      ⟨hReads, rfl⟩ | ⟨escaped, ch, c₁, hReads, hEscape, h⟩ |
      ⟨b, c₁, hReads, ⟨hQuote, hBackslash, hControl⟩, h⟩
    · exact Action.bind_eq_ok_iff.mpr
        ⟨_, c', Cursor.bump_some_iff.mpr hReads, rfl⟩
    · rcases escape_eq_cons hEscape with ⟨rest, rfl⟩
      rcases Cursor.Reads.cons_iff.mp hReads with
        ⟨c₂, hByte, hRest⟩
      refine Action.bind_eq_ok_iff.mpr
        ⟨_, c₂, Cursor.bump_some_iff.mpr hByte, ?_⟩
      exact Action.bind_eq_ok_iff.mpr ⟨ch, c₁,
        escape_eq_ok_iff.mpr ⟨rest, hRest, hEscape⟩, h⟩
    · refine Action.bind_eq_ok_iff.mpr
        ⟨_, c₁, Cursor.bump_some_iff.mpr hReads, ?_⟩
      simp only [if_neg hQuote, if_neg hBackslash,
        if_neg (UInt8.not_lt.mpr hControl)]
      exact h

/-
  The rest of a string, its closing mark included.  The
  induction is on the rounds, of which there are enough.
-/
theorem stringBytes_eq_ok_iff
    {start : Position}
    {rounds done bytes : List UInt8}
    (hRounds : c.unread.length ≤ rounds.length) :
    stringBytes start done rounds c = (.ok bytes, c') ↔
      ∃ inner out,
        c.Reads (inner ++ [0x22]) c' ∧ Contents inner out ∧
          bytes = done.reverse ++ out := by
  induction rounds generalizing c done with
  | nil =>
      constructor
      · intro h
        rcases Action.bind_eq_ok_iff.mp h with ⟨_, _, _, h⟩
        exact absurd h Cursor.malformed_ne_ok
      · intro hParts
        rcases hParts with ⟨inner, out, hReads, _, _⟩
        rw [hReads.unread] at hRounds
        simp at hRounds
  | cons b₀ rounds ih =>
      have hShorter :
          ∀ {used : List UInt8} {c₁ : Cursor},
            c.Reads used c₁ → used ≠ [] →
            c₁.unread.length ≤ rounds.length := by
        intro used c₁ hReads hUsed
        have hPos := List.length_pos_iff.mpr hUsed
        rw [hReads.unread, List.length_append] at hRounds
        simp only [List.length_cons] at hRounds
        omega
      rw [stringBytes_cons_eq_ok_iff]
      constructor
      · intro hCases
        rcases hCases with ⟨hReads, rfl⟩ | ⟨escaped, ch, c₁, hReads, hEscape, h⟩ | ⟨b, c₁, hReads, ⟨hQuote, hBackslash, hControl⟩, h⟩
        · exact ⟨[], [], hReads, .nil, by simp⟩
        · rcases escape_eq_cons hEscape with ⟨rest, rfl⟩
          rcases (ih (hShorter hReads (by simp))).mp h with
            ⟨inner, out, hRest, hContents, rfl⟩
          refine ⟨_, _, ?_, .escape hEscape hContents, by simp⟩
          rw [List.append_assoc]
          exact hReads.append hRest
        · rcases (ih (hShorter hReads (by simp))).mp h with
            ⟨inner, out, hRest, hContents, rfl⟩
          exact ⟨b :: inner, b :: out, hReads.append hRest,
            .byte hQuote hBackslash hControl hContents, by simp⟩
      · intro hParts
        rcases hParts with ⟨inner, out, hReads, hContents, rfl⟩
        cases hContents with
        | nil => exact .inl ⟨hReads, by simp⟩
        | byte hQuote hBackslash hControl hContents =>
            rcases Cursor.Reads.cons_iff.mp hReads with
              ⟨c₁, hByte, hRest⟩
            refine .inr (.inr ⟨_, c₁, hByte,
              ⟨hQuote, hBackslash, hControl⟩, ?_⟩)
            exact (ih (hShorter hByte (by simp))).mpr
              ⟨_, _, hRest, hContents, by simp⟩
        | escape hEscape hContents =>
            rw [List.append_assoc] at hReads
            rcases Cursor.Reads.append_iff.mp hReads with
              ⟨c₁, hEscaped, hRest⟩
            rcases escape_eq_cons hEscape with ⟨rest, rfl⟩
            refine .inr (.inl ⟨_, _, c₁, hEscaped, hEscape, ?_⟩)
            exact (ih (hShorter hEscaped (by simp))).mpr
              ⟨_, _, hRest, hContents, by simp⟩

/- A string is read from mark to mark. -/
theorem string_eq_ok_iff
    {text : String}
    (hHead : c.unread.head? = some 0x22) :
    string c = (.ok text, c') ↔
      ∃ used, c.Reads used c' ∧ Quoted used text := by
  unfold string
  constructor
  · intro h
    rcases Action.bind_eq_ok_iff.mp h with ⟨start, c₀, hPlace, h⟩
    cases hPlace
    rcases Action.bind_eq_ok_iff.mp h with ⟨next, c₁, hBump, h⟩
    have hQuote := Cursor.bump_of_head? hHead hBump
    rcases Action.bind_eq_ok_iff.mp h with ⟨rounds, c₂, hAhead, h⟩
    cases hAhead
    rcases Action.bind_ok_branch h with
      ⟨bytes, c₂, branch, hBytes, hBranch, h⟩
    rcases (stringBytes_eq_ok_iff (Nat.le_refl _)).mp hBytes with
      ⟨inner, out, hReads, hContents, hOut⟩
    rw [List.reverse_nil, List.nil_append] at hOut
    subst hOut
    split at hBranch
    · rename_i text' hText
      subst hBranch
      cases h
      rw [utf8Text?_eq_some_iff.mp hText] at hContents
      exact ⟨_, hQuote.append hReads, .mk hContents.letters⟩
    · subst hBranch
      exact absurd h Cursor.malformed_ne_ok
  · intro hParts
    rcases hParts with ⟨used, hReads, hQuoted⟩
    cases hQuoted with
    | mk hLetters =>
        rcases Cursor.Reads.cons_iff.mp hReads with
          ⟨c₁, hByte, hRest⟩
        refine Action.bind_eq_ok_iff.mpr ⟨c.position, c, rfl, ?_⟩
        refine Action.bind_eq_ok_iff.mpr
          ⟨_, c₁, Cursor.bump_some_iff.mpr hByte, ?_⟩
        refine Action.bind_eq_ok_iff.mpr ⟨_, c₁, rfl, ?_⟩
        refine Action.bind_eq_ok_iff.mpr ⟨_, c',
          (stringBytes_eq_ok_iff (Nat.le_refl _)).mpr
            ⟨_, _, hRest, hLetters.contents, rfl⟩, ?_⟩
        rw [List.reverse_nil, List.nil_append,
          utf8Text?_eq_some_iff.mpr rfl]
        rfl

end Lexeme

end TreeWire
