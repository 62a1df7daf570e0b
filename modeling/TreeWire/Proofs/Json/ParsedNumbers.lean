import TreeWire.Proofs.Json.ParserSteps
import TreeWire.Proofs.Number.Digits

/-
  Numbers that the JSON parser reads.

  What is read as a number is a number of the grammar, and the
  value of a number depends on its own bytes only: a text that
  consists of these bytes has the same value.  The text of an
  integer that fits 64 bits has that integer as its value.

  Key definitions include:
    * `JsonParser.Alone`

  Main statements:
    * `JsonParser.number_local`
    * `JsonParser.number_toDigits`
-/

namespace TreeWire

open Grammar

namespace JsonParser

variable {c c' : JsonCursor}

/-
  A parser reads bytes that have nothing behind them, to the
  last one, with this result.
-/
def Alone
    {α : Type}
    (p : JsonParser α)
    (bytes : List UInt8)
    (a : α) : Prop :=
  ∀ d d' : JsonCursor,
    d.Reads bytes d' → d'.unread = [] → p d = .ok (a, d')

------------------------------------------------------------
-- Digits
------------------------------------------------------------

/- The values of digits. -/
def digitValues
    (bytes : List UInt8) : List Nat :=
  bytes.map fun b => b.toNat - 0x30

@[simp] theorem length_digitValues
    (bytes : List UInt8) :
    (digitValues bytes).length = bytes.length :=
  List.length_map _

/- The digits that come next, as many as there are. -/
def ReadsDigits
    (c : JsonCursor)
    (bytes : List UInt8)
    (c' : JsonCursor) : Prop :=
  c.Reads bytes c' ∧
    (∀ b ∈ bytes, Lexeme.isDigitByte b = true) ∧
    ∀ b, c'.unread.head? = some b → Lexeme.isDigitByte b = false

theorem digits_eq_ok_iff
    {ds : List Nat} :
    digits c = .ok (ds, c') ↔
      ∃ bytes, ReadsDigits c bytes c' ∧ ds = digitValues bytes := by
  unfold digits
  rw [bind_eq_ok_iff]
  constructor
  · intro hParts
    rcases hParts with ⟨bytes, c₁, hTake, hPure⟩
    cases hPure
    exact ⟨bytes, takeWhile_eq_ok_iff.mp hTake, rfl⟩
  · intro hParts
    rcases hParts with ⟨bytes, hReads, rfl⟩
    exact ⟨bytes, c', takeWhile_eq_ok_iff.mpr hReads, rfl⟩

namespace ReadsDigits

/- There is one way to read as many digits as there are. -/
theorem unique
    {bytes more : List UInt8}
    {c₁ : JsonCursor}
    (h : ReadsDigits c bytes c')
    (h' : ReadsDigits c more c₁) :
    bytes = more ∧ c' = c₁ := by
  have hBoth := takeWhile_eq_ok_iff.mpr h
  rw [takeWhile_eq_ok_iff.mpr h'] at hBoth
  cases hBoth
  exact ⟨rfl, rfl⟩

/- Digits that have nothing behind them. -/
theorem of_end
    {bytes : List UInt8}
    (hReads : c.Reads bytes c')
    (hEnd : c'.unread = [])
    (hDigits : ∀ b ∈ bytes, Lexeme.isDigitByte b = true) :
    ReadsDigits c bytes c' := by
  refine ⟨hReads, hDigits, fun b hHead => ?_⟩
  rw [hEnd] at hHead
  cases hHead

/- Digits that have no digit behind them. -/
theorem of_part
    {bytes part : List UInt8}
    {c₁ : JsonCursor}
    (hReads : c.Reads bytes c₁)
    (hPart : c₁.Reads part c')
    (hEnd : c'.unread = [])
    (hDigits : ∀ b ∈ bytes, Lexeme.isDigitByte b = true)
    (hHead :
      ∀ b, part.head? = some b → Lexeme.isDigitByte b = false) :
    ReadsDigits c bytes c₁ := by
  refine ⟨hReads, hDigits, fun b hNext => hHead b ?_⟩
  rwa [hPart.unread, hEnd, List.append_nil] at hNext

/- Digits after one that is read already. -/
theorem grammarDigits
    {b : UInt8}
    {bytes : List UInt8}
    (hFirst : Lexeme.isDigitByte b = true)
    (h : ReadsDigits c bytes c') :
    Digits (b :: bytes) := by
  refine ⟨List.cons_ne_nil b bytes, ?_⟩
  rw [List.forall_mem_cons]
  exact ⟨Lexeme.isDigitByte_iff.mp hFirst,
    fun b' hMem => Lexeme.isDigitByte_iff.mp (h.2.1 b' hMem)⟩

end ReadsDigits

------------------------------------------------------------
-- Exponents
------------------------------------------------------------

theorem scaled_local
    {negative : Bool}
    {value : Nat}
    {e : Int}
    {w : Json}
    (h : scaled negative value e c = .ok (w, c')) :
    c' = c ∧ ∀ d, scaled negative value e d = .ok (w, d) := by
  unfold scaled at h ⊢
  cases hScale : JsonNumber.scale negative value e with
  | none =>
      rw [hScale] at h
      exact absurd h fail_ne_ok
  | some x =>
      rw [hScale] at h
      cases h
      exact ⟨rfl, fun _ => rfl⟩

/- How many digits of an exponent fit. -/
def fittingDigits
    (value : Nat)
    (ds : List Nat) : Nat :=
  ((List.range ds.length).filter fun n =>
    (JsonNumber.appendExponent? value (ds.take n)).isSome).length

theorem fittingDigits_le
    (value : Nat)
    (ds : List Nat) :
    fittingDigits value ds ≤ ds.length := by
  have hFilter := List.length_filter_le
    (fun n =>
      (JsonNumber.appendExponent? value (ds.take n)).isSome)
    (List.range ds.length)
  rwa [List.length_range] at hFilter

/- The digits of an exponent, once they are read. -/
theorem exponentDigits_of_reads
    {value : Nat}
    {bytes : List UInt8}
    {o : Option Nat}
    (h : ReadsDigits c bytes c')
    (hAppend :
      JsonNumber.appendExponent? value (digitValues bytes) = o) :
    exponentDigits value c =
      if o = none then
        (skip (c.unread.take
          (fittingDigits value (digitValues bytes))) >>= fun _ =>
            pure none : JsonParser (Option Nat)) c
      else .ok (o, c') := by
  have hDigits := digits_eq_ok_iff.mpr ⟨bytes, h, rfl⟩
  have hGet : (get : JsonParser JsonCursor) c = .ok (c, c) := rfl
  rw [exponentDigits, bind_ok hGet, bind_ok hDigits]
  cases o with
  | none =>
      rw [hAppend]
      rfl
  | some e =>
      rw [hAppend]
      rfl

/- Reading the digits of an exponent reads digits. -/
theorem readsDigits_of_exponentDigits
    {value : Nat}
    {o : Option Nat}
    (h : exponentDigits value c = .ok (o, c')) :
    ∃ bytes c₁, ReadsDigits c bytes c₁ := by
  rcases bind_eq_ok_iff.mp h with ⟨_, _, hGet, hRest⟩
  cases hGet
  rcases bind_eq_ok_iff.mp hRest with ⟨_, c₁, hDigits, _⟩
  rcases digits_eq_ok_iff.mp hDigits with ⟨bytes, hReads, _⟩
  exact ⟨bytes, c₁, hReads⟩

theorem exponentDigits_some_iff
    {value e : Nat} :
    exponentDigits value c = .ok (some e, c') ↔
      ∃ bytes,
        ReadsDigits c bytes c' ∧
          JsonNumber.appendExponent? value (digitValues bytes) =
            some e := by
  constructor
  · intro h
    rcases readsDigits_of_exponentDigits h with ⟨bytes, c₁, hReads⟩
    rw [exponentDigits_of_reads hReads rfl] at h
    split at h
    · rcases bind_eq_ok_iff.mp h with ⟨_, _, _, hNone⟩
      cases hNone
    · rcases Prod.mk.inj (Except.ok.inj h) with ⟨hAppend, rfl⟩
      exact ⟨bytes, hReads, hAppend⟩
  · intro hParts
    rcases hParts with ⟨bytes, hReads, hAppend⟩
    rw [exponentDigits_of_reads hReads hAppend, if_neg nofun]

theorem exponentDigits_none_iff
    {value : Nat} :
    exponentDigits value c = .ok (none, c') ↔
      ∃ bytes c₁,
        ReadsDigits c bytes c₁ ∧
          JsonNumber.appendExponent? value (digitValues bytes) =
            none ∧
          c.Reads
            (bytes.take (fittingDigits value (digitValues bytes)))
            c' := by
  have hAhead :
      ∀ {bytes : List UInt8} {c₁ : JsonCursor},
        ReadsDigits c bytes c₁ →
          c.unread.take (fittingDigits value (digitValues bytes)) =
            bytes.take (fittingDigits value (digitValues bytes)) := by
    intro bytes c₁ hReads
    have hLe := fittingDigits_le value (digitValues bytes)
    rw [length_digitValues] at hLe
    rw [hReads.1.unread, List.take_append_of_le_length hLe]
  constructor
  · intro h
    rcases readsDigits_of_exponentDigits h with ⟨bytes, c₁, hReads⟩
    rw [exponentDigits_of_reads hReads rfl] at h
    split at h
    · rename_i hNone
      rcases bind_eq_ok_iff.mp h with ⟨_, _, hSkip, hPure⟩
      cases hPure
      have hKept := (skip_eq_ok_iff
        (List.take_append_drop _ c.unread).symm).mp hSkip
      rw [hAhead hReads] at hKept
      exact ⟨bytes, c₁, hReads, hNone, hKept⟩
    · rename_i hSome
      exact absurd (Prod.mk.inj (Except.ok.inj h)).1 hSome
  · intro hParts
    rcases hParts with ⟨bytes, c₁, hReads, hAppend, hKept⟩
    rw [exponentDigits_of_reads hReads hAppend, if_pos rfl,
      hAhead hReads]
    exact bind_eq_ok_iff.mpr
      ⟨(), c', (skip_eq_ok_iff hKept.unread).mpr hKept, rfl⟩

/-
  Too many digits: those that fit are read first and the others
  after them, which are all digits there are.
-/
theorem exponentDigits_then_digits
    {value : Nat}
    {ds : List Nat}
    {c₁ : JsonCursor}
    (hPower : exponentDigits value c = .ok (none, c₁))
    (hDigits : digits c₁ = .ok (ds, c')) :
    ∃ bytes,
      ReadsDigits c bytes c' ∧
        ∀ d d', d.Reads bytes d' → d'.unread = [] →
          ∃ d₁,
            exponentDigits value d = .ok (none, d₁) ∧
              digits d₁ = .ok (ds, d') := by
  rcases exponentDigits_none_iff.mp hPower with
    ⟨all, c₂, hAll, hAppend, hKept⟩
  rcases digits_eq_ok_iff.mp hDigits with ⟨more, hMore, rfl⟩
  generalize hTake :
    all.take (fittingDigits value (digitValues all)) = kept at hKept
  have hPart : ∀ b ∈ kept, Lexeme.isDigitByte b = true := by
    intro b hMem
    rw [← hTake] at hMem
    exact hAll.2.1 b (List.mem_of_mem_take hMem)
  have hBoth : ReadsDigits c (kept ++ more) c' := by
    refine ⟨hKept.append hMore.1, ?_, hMore.2.2⟩
    rw [List.forall_mem_append]
    exact ⟨hPart, hMore.2.1⟩
  rcases hAll.unique hBoth with ⟨rfl, rfl⟩
  refine ⟨kept ++ more, hBoth, fun d d' hReads hEnd => ?_⟩
  rcases JsonCursor.Reads.append_iff.mp hReads with
    ⟨d₁, hFirst, hRest⟩
  rw [← hTake] at hFirst
  refine ⟨d₁, exponentDigits_none_iff.mpr ⟨_, d',
    .of_end hReads hEnd hBoth.2.1, hAppend, hFirst⟩, ?_⟩
  exact digits_eq_ok_iff.mpr
    ⟨more, .of_end hRest hEnd hMore.2.1, rfl⟩

/- Read an exponent from its first digit on. -/
def exponentPower
    (negative : Bool)
    (value : Nat)
    (e : Int)
    (sign : Option UInt8) : JsonParser Json := do
  match ← next with
  | none =>
      fail .endInValue
  | some byte =>
      if Lexeme.isDigitByte byte then
        match ← exponentDigits (byte.toNat - 0x30) with
        | some power =>
            if sign = some 0x2d then
              scaled negative value (e - power)
            else
              scaled negative value (e + power)
        | none =>
            if value ≠ 0 ∧ sign ≠ some 0x2d then
              fail .outOfRange
            else
              let _ ← digits
              pure (.float (Binary64.zero negative))
      else
        fail .invalidNumber

theorem exponent_eq
    (negative : Bool)
    (value : Nat)
    (e : Int) :
    exponent negative value e = (do
      let _ ← next
      let sign ← peek
      if sign = some 0x2b ∨ sign = some 0x2d then
        let _ ← next
        exponentPower negative value e sign
      else
        exponentPower negative value e sign) :=
  rfl

/- The power is a matter of its digits and of the sign. -/
theorem exponentPower_local
    {negative : Bool}
    {value : Nat}
    {e : Int}
    {sign : Option UInt8}
    {w : Json}
    (h : exponentPower negative value e sign c = .ok (w, c')) :
    ∃ bytes,
      c.Reads bytes c' ∧ Digits bytes ∧
        Alone (exponentPower negative value e sign) bytes w := by
  unfold exponentPower at h
  rcases next_needed h with ⟨byte, c₁, hFirst, h⟩
  split at h
  case isFalse => exact absurd h fail_ne_ok
  rename_i hDigit
  rcases bind_ok_branch h with
    ⟨power?, c₂, branch, hPower, hBranch, h⟩
  cases power? with
  | some power =>
      rcases exponentDigits_some_iff.mp hPower with
        ⟨more, hMore, hAppend⟩
      have hScaled :
          c' = c₂ ∧ ∀ d, branch d = .ok (w, d) := by
        dsimp only at hBranch
        split at hBranch
        · subst hBranch
          exact scaled_local h
        · subst hBranch
          exact scaled_local h
      rcases hScaled with ⟨rfl, hScaled⟩
      refine ⟨byte :: more, hFirst.append hMore.1,
        hMore.grammarDigits hDigit, ?_⟩
      intro d d' hReads hEnd
      rcases JsonCursor.Reads.cons_iff.mp hReads with
        ⟨d₁, hByte, hRest⟩
      rw [exponentPower, bind_ok (next_some_iff.mpr hByte)]
      dsimp only
      rw [if_pos hDigit, bind_ok (exponentDigits_some_iff.mpr
        ⟨more, .of_end hRest hEnd hMore.2.1, hAppend⟩), hBranch]
      exact hScaled d'
  | none =>
      dsimp only at hBranch
      split at hBranch
      case isTrue =>
        subst hBranch
        exact absurd h fail_ne_ok
      rename_i hZero
      subst hBranch
      rcases bind_eq_ok_iff.mp h with ⟨_, _, hDigits, hPure⟩
      cases hPure
      rcases exponentDigits_then_digits hPower hDigits with
        ⟨more, hMore, hAlone⟩
      refine ⟨byte :: more, hFirst.append hMore.1,
        hMore.grammarDigits hDigit, ?_⟩
      intro d d' hReads hEnd
      rcases JsonCursor.Reads.cons_iff.mp hReads with
        ⟨d₁, hByte, hRest⟩
      rcases hAlone d₁ d' hRest hEnd with
        ⟨d₂, hPower', hDigits'⟩
      rw [exponentPower, bind_ok (next_some_iff.mpr hByte)]
      dsimp only
      rw [if_pos hDigit, bind_ok hPower']
      dsimp only
      rw [if_neg hZero, bind_ok hDigits']
      rfl

/- An exponent, from its mark on. -/
theorem exponent_local
    {negative : Bool}
    {value : Nat}
    {e : Int}
    {mark : UInt8}
    {w : Json}
    (hHead : c.unread.head? = some mark)
    (hMark : mark = 0x65 ∨ mark = 0x45)
    (h : exponent negative value e c = .ok (w, c')) :
    ∃ more,
      c.Reads (mark :: more) c' ∧ Exponent (mark :: more) ∧
        Alone (exponent negative value e) (mark :: more) w := by
  rw [exponent_eq] at h
  rcases next_then hHead h with ⟨c₁, hFirst, h⟩
  rcases bind_ok_branch h with
    ⟨sign, c₂, branch, hPeek, hBranch, h⟩
  rcases peek_eq_ok_iff.mp hPeek with ⟨hSign, rfl⟩
  split at hBranch
  · rename_i hSigned
    subst hBranch
    have hByte :
        ∃ s, sign = some s ∧ ([s] = [0x2b] ∨ [s] = [0x2d]) := by
      rcases hSigned with rfl | rfl
      · exact ⟨0x2b, rfl, .inl rfl⟩
      · exact ⟨0x2d, rfl, .inr rfl⟩
    rcases hByte with ⟨s, rfl, hCase⟩
    rcases next_then hSign.symm h with ⟨c₃, hSecond, h⟩
    rcases exponentPower_local h with ⟨bytes, hReads, hDigits, hAlone⟩
    refine ⟨[s] ++ bytes, hFirst.append (hSecond.append hReads),
      .digits hMark (.inr hCase) hDigits, ?_⟩
    intro d d' hRead hEnd
    rcases JsonCursor.Reads.cons_iff.mp hRead with
      ⟨d₁, hMark', hRest⟩
    rcases JsonCursor.Reads.cons_iff.mp hRest with
      ⟨d₂, hSign', hPower⟩
    rw [exponent_eq, bind_ok (next_some_iff.mpr hMark'),
      bind_ok (peek_eq_ok_iff.mpr ⟨rfl, rfl⟩),
      hSign'.head?_unread, if_pos hSigned,
      bind_ok (next_some_iff.mpr hSign')]
    exact hAlone d₂ d' hPower hEnd
  · rename_i hUnsigned
    subst hBranch
    rcases exponentPower_local h with ⟨bytes, hReads, hDigits, hAlone⟩
    refine ⟨bytes, hFirst.append hReads,
      .digits hMark (.inl rfl) hDigits, ?_⟩
    intro d d' hRead hEnd
    rcases JsonCursor.Reads.cons_iff.mp hRead with
      ⟨d₁, hMark', hPower⟩
    have hSame : d₁.unread.head? = sign := by
      cases bytes with
      | nil => exact absurd rfl hDigits.1
      | cons b rest =>
          rw [hSign, hPower.head?_unread, hReads.head?_unread]
    rw [exponent_eq, bind_ok (next_some_iff.mpr hMark'),
      bind_ok (peek_eq_ok_iff.mpr ⟨rfl, rfl⟩), hSame,
      if_neg hUnsigned]
    exact hAlone d₁ d' hPower hEnd

/- An exponent starts with no digit. -/
theorem head?_exponent
    {power : List UInt8}
    (h : Exponent power) :
    ∀ b, power.head? = some b →
      Lexeme.isDigitByte b = false ∧ b ≠ 0x2e := by
  intro b hHead
  cases h with
  | none => cases hHead
  | digits hMark _ _ =>
      cases hHead
      rcases hMark with rfl | rfl <;> decide

------------------------------------------------------------
-- Fractions
------------------------------------------------------------

theorem mark_of_letter
    {mark : Option UInt8}
    (h : mark = some 0x65 ∨ mark = some 0x45) :
    ∃ b, mark = some b ∧ (b = 0x65 ∨ b = 0x45) := by
  rcases h with rfl | rfl
  · exact ⟨0x65, rfl, .inl rfl⟩
  · exact ⟨0x45, rfl, .inr rfl⟩

/- An exponent or none, after the digits behind a point. -/
theorem exponentOrEnd_local
    {negative : Bool}
    {value : Nat}
    {e : Int}
    {w : Json}
    (h : exponentOrEnd negative value e c = .ok (w, c')) :
    ∃ bytes,
      c.Reads bytes c' ∧ Exponent bytes ∧
        Alone (exponentOrEnd negative value e) bytes w := by
  unfold exponentOrEnd at h
  rcases bind_ok_branch h with
    ⟨mark, c₁, branch, hPeek, hBranch, h⟩
  rcases peek_eq_ok_iff.mp hPeek with ⟨hMark, rfl⟩
  split at hBranch
  · rename_i hCase
    subst hBranch
    rcases mark_of_letter hCase with ⟨b, rfl, hLetter⟩
    rcases exponent_local hMark.symm hLetter h with
      ⟨more, hReads, hExponent, hAlone⟩
    refine ⟨b :: more, hReads, hExponent, ?_⟩
    intro d d' hRead hEnd
    rw [exponentOrEnd, bind_ok (peek_eq_ok_iff.mpr ⟨rfl, rfl⟩),
      hRead.head?_unread, if_pos hCase]
    exact hAlone d d' hRead hEnd
  · subst hBranch
    rcases scaled_local h with ⟨rfl, hScaled⟩
    refine ⟨[], JsonCursor.Reads.nil_iff.mpr rfl, .none, ?_⟩
    intro d d' hRead hEnd
    cases JsonCursor.Reads.nil_iff.mp hRead
    rw [exponentOrEnd, bind_ok (peek_eq_ok_iff.mpr ⟨rfl, rfl⟩),
      hEnd]
    exact hScaled d

/- A fraction, from its point on, and what follows it. -/
theorem fraction_local
    {negative : Bool}
    {value : Nat}
    {e : Int}
    {w : Json}
    (hHead : c.unread.head? = some 0x2e)
    (h : fraction negative value e c = .ok (w, c')) :
    ∃ bytes power,
      c.Reads (0x2e :: (bytes ++ power)) c' ∧ Digits bytes ∧
        Exponent power ∧
        Alone (fraction negative value e)
          (0x2e :: (bytes ++ power)) w := by
  unfold fraction at h
  rcases next_then hHead h with ⟨c₁, hPoint, h⟩
  rcases bind_ok_branch h with
    ⟨ds, c₂, branch, hDigits, hBranch, h⟩
  rcases digits_eq_ok_iff.mp hDigits with ⟨bytes, hBytes, rfl⟩
  split at hBranch
  case isTrue =>
    subst hBranch
    rcases bind_ok_branch h with
      ⟨o, _, branch, _, hBranch, h⟩
    cases o with
    | none =>
        subst hBranch
        exact absurd h fail_ne_ok
    | some b =>
        subst hBranch
        exact absurd h failNext_ne_ok
  rename_i hSome
  subst hBranch
  rcases exponentOrEnd_local h with
    ⟨power, hPower, hExponent, hAlone⟩
  refine ⟨bytes, power, ?_, ?_, hExponent, ?_⟩
  · exact hPoint.append (hBytes.1.append hPower)
  · refine ⟨?_, fun b hMem =>
      Lexeme.isDigitByte_iff.mp (hBytes.2.1 b hMem)⟩
    intro hNil
    exact hSome (by simp [hNil, digitValues])
  · intro d d' hRead hEnd
    rcases JsonCursor.Reads.cons_iff.mp hRead with
      ⟨d₁, hPoint', hRest⟩
    rcases JsonCursor.Reads.append_iff.mp hRest with
      ⟨d₂, hBytes', hPower'⟩
    have hDigits' : ReadsDigits d₁ bytes d₂ :=
      .of_part hBytes' hPower' hEnd hBytes.2.1 fun b hFirst =>
        (head?_exponent hExponent b hFirst).1
    rw [fraction, bind_ok (next_some_iff.mpr hPoint'),
      bind_ok (digits_eq_ok_iff.mpr ⟨bytes, hDigits', rfl⟩),
      if_neg hSome]
    exact hAlone d₂ d' hPower' hEnd

------------------------------------------------------------
-- Whole Numbers
------------------------------------------------------------

/- What follows the digits before the point. -/
theorem afterWhole_local
    {negative : Bool}
    {value dropped : Nat}
    {w : Json}
    (h : afterWhole negative value dropped c = .ok (w, c')) :
    ∃ part power,
      c.Reads (part ++ power) c' ∧ Fraction part ∧
        Exponent power ∧
        Alone (afterWhole negative value dropped)
          (part ++ power) w := by
  unfold afterWhole at h
  rcases bind_ok_branch h with
    ⟨mark, c₁, branch, hPeek, hBranch, h⟩
  rcases peek_eq_ok_iff.mp hPeek with ⟨hMark, rfl⟩
  by_cases hPoint : mark = some 0x2e
  · rw [if_pos hPoint] at hBranch
    subst hBranch hPoint
    rcases fraction_local hMark.symm h with
      ⟨bytes, power, hReads, hDigits, hExponent, hAlone⟩
    refine ⟨0x2e :: bytes, power, hReads, .digits hDigits,
      hExponent, ?_⟩
    intro d d' hRead hEnd
    rw [afterWhole, bind_ok (peek_eq_ok_iff.mpr ⟨rfl, rfl⟩),
      hRead.head?_unread, if_pos rfl]
    exact hAlone d d' hRead hEnd
  · rw [if_neg hPoint] at hBranch
    by_cases hLetter : mark = some 0x65 ∨ mark = some 0x45
    · rw [if_pos hLetter] at hBranch
      subst hBranch
      rcases mark_of_letter hLetter with ⟨b, rfl, hCase⟩
      rcases exponent_local hMark.symm hCase h with
        ⟨more, hReads, hExponent, hAlone⟩
      refine ⟨[], b :: more, hReads, .none, hExponent, ?_⟩
      intro d d' hRead hEnd
      rw [afterWhole, bind_ok (peek_eq_ok_iff.mpr ⟨rfl, rfl⟩),
        hRead.head?_unread, if_neg hPoint, if_pos hLetter]
      exact hAlone d d' hRead hEnd
    · rw [if_neg hLetter] at hBranch
      have hStays :
          c' = c₁ ∧ ∀ d, branch d = .ok (w, d) := by
        split at hBranch
        · subst hBranch
          cases h
          exact ⟨rfl, fun _ => rfl⟩
        · subst hBranch
          exact scaled_local h
      rcases hStays with ⟨rfl, hStays⟩
      refine ⟨[], [], JsonCursor.Reads.nil_iff.mpr rfl, .none,
        .none, ?_⟩
      intro d d' hRead hEnd
      cases JsonCursor.Reads.nil_iff.mp hRead
      rw [afterWhole, bind_ok (peek_eq_ok_iff.mpr ⟨rfl, rfl⟩),
        hEnd, ← hStays d, ← hBranch]
      rfl

theorem head?_parts
    {part power : List UInt8}
    (hPart : Fraction part)
    (hPower : Exponent power) :
    ∀ b, (part ++ power).head? = some b →
      Lexeme.isDigitByte b = false := by
  intro b hHead
  cases hPart with
  | none => exact (head?_exponent hPower b hHead).1
  | digits _ =>
      cases hHead
      decide

/- A zero before the point stands alone. -/
theorem number_zero
    (negative : Bool)
    (hZero : c.Reads [0x30] c')
    (hEnd :
      ∀ b, c'.unread.head? = some b →
        Lexeme.isDigitByte b = false) :
    number negative c = afterWhole negative 0 0 c' := by
  have hNoDigit :
      ¬ c'.unread.head?.any Lexeme.isDigitByte = true := by
    cases hHead : c'.unread.head? with
    | none => simp
    | some b => simp [hEnd b hHead]
  rw [number, bind_ok (next_some_iff.mpr hZero)]
  dsimp only
  rw [if_pos rfl, bind_ok (peek_eq_ok_iff.mpr ⟨rfl, rfl⟩),
    if_neg hNoDigit]

/- Any other digit, and those that follow it. -/
theorem number_digits
    {b : UInt8}
    {bytes : List UInt8}
    {c₁ : JsonCursor}
    {value kept : Nat}
    (negative : Bool)
    (hFirst : c.Reads [b] c₁)
    (hZero : b ≠ 0x30)
    (hDigit : Lexeme.isDigitByte b = true)
    (hBytes : ReadsDigits c₁ bytes c')
    (hAppend :
      JsonNumber.appendDigits (b.toNat - 0x30) 0
          (digitValues bytes) =
        (value, kept)) :
    number negative c =
      afterWhole negative value (bytes.length - kept) c' := by
  rw [number, bind_ok (next_some_iff.mpr hFirst)]
  dsimp only
  rw [if_neg hZero, if_pos hDigit,
    bind_ok (digits_eq_ok_iff.mpr ⟨bytes, hBytes, rfl⟩), hAppend,
    length_digitValues]

/- A number after its sign. -/
theorem number_local
    {negative : Bool}
    {w : Json}
    (h : number negative c = .ok (w, c')) :
    ∃ whole part power,
      c.Reads (whole ++ (part ++ power)) c' ∧ Whole whole ∧
        Fraction part ∧ Exponent power ∧
        Alone (number negative) (whole ++ (part ++ power)) w := by
  rw [number] at h
  rcases next_needed h with ⟨byte, c₁, hFirst, h⟩
  by_cases hZero : byte = 0x30
  · rw [if_pos hZero] at h
    subst hZero
    rcases bind_ok_branch h with
      ⟨o, c₂, branch, hPeek, hBranch, h⟩
    rcases peek_eq_ok_iff.mp hPeek with ⟨rfl, rfl⟩
    split at hBranch
    case isTrue =>
      subst hBranch
      exact absurd h failNext_ne_ok
    subst hBranch
    rcases afterWhole_local h with
      ⟨part, power, hReads, hPart, hPower, hAlone⟩
    refine ⟨[0x30], part, power, hFirst.append hReads, .zero,
      hPart, hPower, fun d d' hRead hEnd => ?_⟩
    rcases JsonCursor.Reads.append_iff.mp hRead with
      ⟨d₁, hByte, hRest⟩
    rw [number_zero negative hByte]
    · exact hAlone d₁ d' hRest hEnd
    · rw [hRest.unread, hEnd, List.append_nil]
      exact head?_parts hPart hPower
  · rw [if_neg hZero] at h
    split at h
    case isFalse => exact absurd h fail_ne_ok
    rename_i hDigit
    rcases bind_eq_ok_iff.mp h with ⟨_, c₂, hDigits, h⟩
    rcases digits_eq_ok_iff.mp hDigits with ⟨bytes, hBytes, rfl⟩
    rcases afterWhole_local h with
      ⟨part, power, hReads, hPart, hPower, hAlone⟩
    refine ⟨byte :: bytes, part, power,
      hFirst.append (hBytes.1.append hReads),
      .digits (hBytes.grammarDigits hDigit) ?_, hPart, hPower,
      fun d d' hRead hEnd => ?_⟩
    · exact fun hSame => hZero (Option.some.inj hSame)
    · rcases JsonCursor.Reads.cons_iff.mp hRead with
        ⟨d₁, hByte, hRest⟩
      rcases JsonCursor.Reads.append_iff.mp hRest with
        ⟨d₂, hBytes', hParts⟩
      have hDigits' : ReadsDigits d₁ bytes d₂ :=
        .of_part hBytes' hParts hEnd hBytes.2.1
          (head?_parts hPart hPower)
      rw [number_digits negative hByte hZero hDigit hDigits' rfl,
        ← length_digitValues bytes]
      exact hAlone d₂ d' hParts hEnd

------------------------------------------------------------
-- Integers
------------------------------------------------------------

theorem le_appended
    (value : Nat)
    (ds : List Nat) :
    value ≤ ds.foldl (fun n d => 10 * n + d) value := by
  induction ds generalizing value with
  | nil => exact Nat.le_refl value
  | cons d ds ih =>
      have hRest := ih (10 * value + d)
      rw [List.foldl_cons]
      omega

/- Digits are all appended if the number fits in the end. -/
theorem appendDigits_of_le
    {value : Nat}
    {ds : List Nat}
    (count : Nat)
    (h :
      ds.foldl (fun n d => 10 * n + d) value ≤
        JsonNumber.greatestWord) :
    JsonNumber.appendDigits value count ds =
      (ds.foldl (fun n d => 10 * n + d) value,
        count + ds.length) := by
  induction ds generalizing value count with
  | nil => rfl
  | cons d ds ih =>
      have hFirst := le_appended (10 * value + d) ds
      rw [List.foldl_cons] at h ⊢
      rw [JsonNumber.appendDigits, if_neg (by omega), ih _ h,
        List.length_cons, Nat.add_right_comm, Nat.add_assoc]

/- The values of the bytes of digits. -/
theorem digitValues_utf8
    {cs : List Char}
    (h : ∀ c ∈ cs, c.isDigit = true) :
    digitValues (utf8 cs) = cs.map digitValue := by
  induction cs with
  | nil => rfl
  | cons c cs ih =>
      rw [List.forall_mem_cons, isDigit_iff] at h
      rw [utf8_cons_ascii _ (by omega), digitValues, List.map_cons,
        List.map_cons]
      congr 1
      · rw [UInt8.toNat_ofNat_of_lt' (by
          exact Nat.lt_of_le_of_lt h.1.2 (by decide))]
        rfl
      · exact ih h.2

theorem afterWhole_end
    {negative : Bool}
    {value : Nat}
    (hEnd : c.unread = []) :
    afterWhole negative value 0 c =
      .ok (JsonNumber.integer negative value, c) := by
  rw [afterWhole, bind_ok (peek_eq_ok_iff.mpr ⟨rfl, rfl⟩), hEnd]
  rfl

/- A digit that is a character is a digit that is a byte. -/
theorem isDigitByte_ofNat
    {first : Char}
    (h : first.isDigit = true) :
    (UInt8.ofNat first.toNat).toNat = first.toNat ∧
      Lexeme.isDigitByte (UInt8.ofNat first.toNat) = true := by
  have hRange := isDigit_iff.mp h
  have hByte :
      (UInt8.ofNat first.toNat).toNat = first.toNat :=
    UInt8.toNat_ofNat_of_lt'
      (Nat.lt_of_le_of_lt hRange.2 (by decide))
  refine ⟨hByte, ?_⟩
  rw [Lexeme.isDigitByte_iff, UInt8.le_iff_toNat_le,
    UInt8.le_iff_toNat_le, hByte]
  exact hRange

/- Digits that start with no zero, as long as they fit. -/
theorem number_digitChars
    {first : Char}
    {rest : List Char}
    (negative : Bool)
    (hFirst : first.isDigit = true)
    (hZero : first ≠ '0')
    (hRest : ∀ c ∈ rest, c.isDigit = true)
    (hFits :
      digitsValue (first :: rest) ≤ JsonNumber.greatestWord) :
    Alone (number negative) (utf8 (first :: rest))
      (JsonNumber.integer negative
        (digitsValue (first :: rest))) := by
  intro d d' hReads hEnd
  rcases isDigitByte_ofNat hFirst with ⟨hByte, hDigit⟩
  have hRange := isDigit_iff.mp hFirst
  rw [utf8_cons_ascii _ (by omega)] at hReads
  rcases JsonCursor.Reads.cons_iff.mp hReads with
    ⟨d₁, hOne, hMore⟩
  have hNotZero : UInt8.ofNat first.toNat ≠ 0x30 := by
    intro hEq
    rw [hEq] at hByte
    exact hZero (Char.toNat_inj.mp hByte.symm)
  have hDigits : ReadsDigits d₁ (utf8 rest) d' :=
    .of_end hMore hEnd fun b hMem =>
      Lexeme.isDigitByte_iff.mpr (digits_utf8 hRest b hMem)
  have hTotal :
      (digitValues (utf8 rest)).foldl
          (fun n d => 10 * n + d) (first.toNat - 0x30) =
        digitsValue (first :: rest) := by
    rw [digitValues_utf8 hRest, List.foldl_map, digitsValue,
      List.foldl_cons, Nat.mul_zero, Nat.zero_add]
    rfl
  rw [← hTotal] at hFits
  have hAppend := appendDigits_of_le 0 hFits
  rw [hTotal, Nat.zero_add, length_digitValues, ← hByte] at hAppend
  rw [number_digits negative hOne hNotZero hDigit hDigits hAppend,
    Nat.sub_self, afterWhole_end hEnd]

/- The digits of a number that fits stand for that number. -/
theorem number_toDigits
    {n : Nat}
    (negative : Bool)
    (h : n ≤ JsonNumber.greatestWord) :
    Alone (number negative) (utf8 (Nat.toDigits 10 n))
      (JsonNumber.integer negative n) := by
  by_cases hZero : n = 0
  · subst hZero
    intro d d' hReads hEnd
    rw [number_zero negative hReads, afterWhole_end hEnd]
    rw [hEnd]
    exact nofun
  · have hAll := all_isDigit_toDigits n
    have hHead := head?_toDigits_ne_zero (Nat.pos_of_ne_zero hZero)
    have hValue := digitsValue_toDigits n
    cases hDigits : Nat.toDigits 10 n with
    | nil => exact absurd hDigits Nat.toDigits_ne_nil
    | cons first rest =>
        rw [hDigits] at hAll hHead hValue
        rw [List.forall_mem_cons] at hAll
        rw [← hValue] at h ⊢
        exact number_digitChars negative hAll.1
          (fun hEq => hHead (congrArg some hEq)) hAll.2 h

end JsonParser

end TreeWire
