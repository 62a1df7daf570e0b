import TreeWire.Proofs.Json.Parsing
import TreeWire.Proofs.Number.Range

/-
  What numbers are parsed as.

  A number with a fraction or an exponent is parsed as a double.
  So is an integer that does not fit 64 bits, and the negative
  zero.  Every other integer stays the integer that it is.

  Key definitions include:
    * `JsonParser.GivesFloat`

  Main statements:
    * `JsonParser.number_of_whole`
    * `parse_float`
    * `parse_int_lost`
-/

namespace TreeWire

open Grammar

namespace JsonParser

variable {c c₁ c' : JsonCursor}

------------------------------------------------------------
-- Doubles
------------------------------------------------------------

/- Whatever a parser gives is a double. -/
def GivesFloat
    (p : JsonParser Json) : Prop :=
  ∀ ⦃c w c'⦄, p c = .ok (w, c') → ∃ x, w = .float x

theorem givesFloat_bind
    {α : Type}
    {p : JsonParser α}
    {f : α → JsonParser Json}
    (h : ∀ a, GivesFloat (f a)) :
    GivesFloat (p >>= f) := by
  intro c w c' hRun
  rcases bind_eq_ok_iff.mp hRun with ⟨a, c₁, _, hRest⟩
  exact h a hRest

theorem givesFloat_fail
    (fault : JsonFault) :
    GivesFloat (fail fault) := by
  intro c w c' hRun
  exact absurd hRun fail_ne_ok

theorem givesFloat_pure
    (x : Binary64) :
    GivesFloat (pure (.float x)) := by
  intro c w c' hRun
  cases hRun
  exact ⟨x, rfl⟩

theorem givesFloat_scaled
    (negative : Bool)
    (value : Nat)
    (e : Int) :
    GivesFloat (scaled negative value e) := by
  unfold scaled
  split
  · exact givesFloat_pure _
  · exact givesFloat_fail _

theorem givesFloat_exponentPower
    (negative : Bool)
    (value : Nat)
    (e : Int)
    (sign : Option UInt8) :
    GivesFloat (exponentPower negative value e sign) := by
  unfold exponentPower
  refine givesFloat_bind fun first => ?_
  cases first with
  | none => exact givesFloat_fail _
  | some b =>
      dsimp only
      split
      · refine givesFloat_bind fun power => ?_
        cases power with
        | some power =>
            dsimp only
            split <;> exact givesFloat_scaled _ _ _
        | none =>
            dsimp only
            split
            · exact givesFloat_fail _
            · exact givesFloat_bind fun _ => givesFloat_pure _
      · exact givesFloat_fail _

theorem givesFloat_exponent
    (negative : Bool)
    (value : Nat)
    (e : Int) :
    GivesFloat (exponent negative value e) := by
  rw [exponent_eq]
  refine givesFloat_bind fun _ => givesFloat_bind fun sign => ?_
  split
  · exact givesFloat_bind fun _ => givesFloat_exponentPower _ _ _ _
  · exact givesFloat_exponentPower _ _ _ _

theorem givesFloat_exponentOrEnd
    (negative : Bool)
    (value : Nat)
    (e : Int) :
    GivesFloat (exponentOrEnd negative value e) := by
  unfold exponentOrEnd
  refine givesFloat_bind fun mark => ?_
  split
  · exact givesFloat_exponent _ _ _
  · exact givesFloat_scaled _ _ _

theorem givesFloat_fraction
    (negative : Bool)
    (value : Nat)
    (e : Int) :
    GivesFloat (fraction negative value e) := by
  unfold fraction
  refine givesFloat_bind fun _ => givesFloat_bind fun ds => ?_
  split
  · refine givesFloat_bind fun o => ?_
    cases o with
    | none => exact givesFloat_fail _
    | some b => exact givesFloat_bind fun _ => givesFloat_fail _
  · exact givesFloat_exponentOrEnd _ _ _

/- A point or a mark of an exponent, or digits that do not fit. -/
theorem float_of_afterWhole
    {negative : Bool}
    {value dropped : Nat}
    {w : Json}
    (hMore :
      dropped ≠ 0 ∨
        ∃ b, c.unread.head? = some b ∧
          (b = 0x2e ∨ b = 0x65 ∨ b = 0x45))
    (h : afterWhole negative value dropped c = .ok (w, c')) :
    ∃ x, w = .float x := by
  unfold afterWhole at h
  rw [bind_ok (peek_eq_ok_iff.mpr ⟨rfl, rfl⟩)] at h
  split at h
  · exact givesFloat_fraction _ _ _ h
  · next hPoint =>
      split at h
      · exact givesFloat_exponent _ _ _ h
      · next hMark =>
          rcases hMore with hDropped | ⟨b, hHead, hByte⟩
          · rw [if_neg hDropped] at h
            exact givesFloat_scaled _ _ _ h
          · rw [hHead] at hPoint hMark
            rcases hByte with rfl | rfl | rfl
            · exact absurd rfl hPoint
            · exact absurd (.inl rfl) hMark
            · exact absurd (.inr rfl) hMark

------------------------------------------------------------
-- Digits Before the Point
------------------------------------------------------------

/- The number that digits stand for. -/
def digitsNumber
    (bytes : List UInt8) : Nat :=
  (digitValues bytes).foldl (fun n d => 10 * n + d) 0

/- Digits that are all appended make up a number that fits. -/
theorem appendDigits_all
    {value count total kept : Nat}
    {ds : List Nat}
    (hValue : value ≤ JsonNumber.greatestWord)
    (h : JsonNumber.appendDigits value count ds = (total, kept)) :
    kept < count + ds.length ∨
      kept = count + ds.length ∧
        total = ds.foldl (fun n d => 10 * n + d) value ∧
        total ≤ JsonNumber.greatestWord := by
  induction ds generalizing value count with
  | nil =>
      cases h
      exact .inr ⟨rfl, rfl, hValue⟩
  | cons d ds ih =>
      rw [JsonNumber.appendDigits] at h
      split at h
      · cases h
        exact .inl (by simp)
      · next hFits =>
          rw [List.length_cons, List.foldl_cons, ← Nat.add_assoc,
            Nat.add_right_comm]
          exact ih (Nat.le_of_not_lt hFits) h

/-
  The digits before the point are read to the last one, and either
  some are dropped or they are a number that fits.
-/
theorem number_of_whole
    (negative : Bool)
    {whole : List UInt8}
    (hWhole : Whole whole)
    (hReads : c.Reads whole c₁)
    (hEnd :
      ∀ b, c₁.unread.head? = some b →
        Lexeme.isDigitByte b = false) :
    ∃ value dropped,
      number negative c = afterWhole negative value dropped c₁ ∧
        (dropped = 0 →
          value = digitsNumber whole ∧
            value ≤ JsonNumber.greatestWord) := by
  cases hWhole with
  | zero =>
      exact ⟨0, 0, number_zero negative hReads hEnd,
        fun _ => ⟨rfl, Nat.zero_le _⟩⟩
  | digits hDigits hFirst =>
      cases whole with
      | nil => exact absurd rfl hDigits.1
      | cons b rest =>
          rcases JsonCursor.Reads.cons_iff.mp hReads with
            ⟨c₂, hByte, hRest⟩
          have hZero : b ≠ 0x30 := fun h => hFirst (congrArg some h)
          rcases List.forall_mem_cons.mp hDigits.2 with
            ⟨hRange, hOthers⟩
          have hRead : ReadsDigits c₂ rest c₁ :=
            ⟨hRest, fun b hMem =>
              Lexeme.isDigitByte_iff.mpr (hOthers b hMem), hEnd⟩
          rcases hAppend : JsonNumber.appendDigits (b.toNat - 0x30) 0
              (digitValues rest) with ⟨value, kept⟩
          refine ⟨value, _, number_digits negative hByte hZero
            (Lexeme.isDigitByte_iff.mpr hRange) hRead hAppend, ?_⟩
          have hLow : b.toNat - 0x30 ≤ JsonNumber.greatestWord := by
            have hByteLt := b.toNat_lt
            rw [JsonNumber.greatestWord]
            omega
          intro hNone
          rcases appendDigits_all hLow hAppend with
            hLess | ⟨_, hTotal, hFits⟩
          · rw [length_digitValues] at hLess
            omega
          · refine ⟨?_, hFits⟩
            rw [hTotal, digitsNumber, digitValues, digitValues,
              List.map_cons, List.foldl_cons, Nat.mul_zero,
              Nat.zero_add]

end JsonParser

------------------------------------------------------------
-- Numbers Alone
------------------------------------------------------------

theorem value_of_parse
    {bytes : List UInt8}
    {w : Json}
    (h : Json.parse bytes = .ok w) :
    ∃ c, JsonParser.value 128 ⟨bytes, 1, 0⟩ = .ok (w, c) := by
  unfold Json.parse at h
  split at h
  · next j c hDocument =>
      cases h
      rcases JsonParser.bind_ok_branch hDocument with
        ⟨j', c₁, branch, hValue, rfl, hRest⟩
      rcases JsonParser.bind_ok_branch hRest with
        ⟨o, c₂, branch, _, hBranch, hLast⟩
      cases o with
      | none =>
          subst hBranch
          cases hLast
          exact ⟨c₁, hValue⟩
      | some b =>
          subst hBranch
          exact absurd hLast JsonParser.failNext_ne_ok
  · cases h

/- What follows the digits of a number makes it what it is. -/
theorem afterWhole_of_parse
    {negative : Bool}
    {whole tail : List UInt8}
    {w : Json}
    (hWhole : Whole whole)
    (hTail :
      ∀ b, tail.head? = some b → Lexeme.isDigitByte b = false)
    (h : Json.parse (minusOf negative ++ (whole ++ tail)) = .ok w) :
    ∃ value dropped c c',
      JsonParser.afterWhole negative value dropped c = .ok (w, c') ∧
        c.unread = tail ∧
        (dropped = 0 →
          value = JsonParser.digitsNumber whole ∧
            value ≤ JsonNumber.greatestWord) := by
  rcases value_of_parse h with ⟨last, hValue⟩
  have hNumber :
      ∃ c c₁ : JsonCursor,
        c.Reads whole c₁ ∧ c₁.unread = tail ∧
          JsonParser.number negative c = .ok (w, last) := by
    rcases JsonCursor.reads_all
        (minusOf negative ++ (whole ++ tail)) 1 0 with
      ⟨c', hAll, hEnd⟩
    rcases JsonCursor.Reads.append_iff.mp hAll with
      ⟨c, hSign, hRest⟩
    rcases JsonCursor.Reads.append_iff.mp hRest with
      ⟨c₁, hReads, hTokens⟩
    have hUnread := hTokens.unread
    rw [hEnd, List.append_nil] at hUnread
    refine ⟨c, c₁, hReads, hUnread, ?_⟩
    cases negative with
    | false =>
        rcases whole_eq_cons hWhole with ⟨b, rest, rfl, hDigit⟩
        cases JsonCursor.Reads.nil_iff.mp hSign
        rw [← JsonParser.value_of_digit 127 rfl hDigit]
        exact hValue
    | true =>
        rw [← JsonParser.value_of_minus 127 hSign]
        exact hValue
  rcases hNumber with ⟨c, c₁, hReads, rfl, hRun⟩
  rcases JsonParser.number_of_whole negative hWhole hReads hTail with
    ⟨value, dropped, hAfter, hFits⟩
  rw [hAfter] at hRun
  exact ⟨value, dropped, c₁, last, hRun, rfl, hFits⟩

theorem exists_minusOf
    {sign : List UInt8}
    (h : sign = [] ∨ sign = [0x2d]) :
    ∃ negative, sign = minusOf negative := by
  rcases h with rfl | rfl
  · exact ⟨false, rfl⟩
  · exact ⟨true, rfl⟩

/- A number with a fraction or an exponent is parsed as a double. -/
theorem parse_float
    {bytes : List UInt8}
    {w : Json}
    (hNumber : Number bytes .float)
    (hParse : Json.parse bytes = .ok w) :
    ∃ x, w = .float x := by
  generalize hKind : LiteralKind.float = kind at hNumber
  cases hNumber with
  | @mk sign whole part power hSign hWhole hPart hPower =>
      rcases exists_minusOf hSign with ⟨negative, rfl⟩
      have hTail := JsonParser.head?_parts hPart hPower
      rw [List.append_assoc, List.append_assoc] at hParse
      rcases afterWhole_of_parse hWhole hTail hParse with
        ⟨value, dropped, c, c', hRun, hUnread, _⟩
      refine JsonParser.float_of_afterWhole (.inr ?_) hRun
      rw [hUnread]
      cases hPart with
      | digits => exact ⟨0x2e, rfl, .inl rfl⟩
      | none =>
          cases hPower with
          | none => cases hKind
          | @digits mark _ _ hMark =>
              exact ⟨mark, rfl, .inr hMark⟩

theorem digitsNumber_toDigits
    (m : Nat) :
    JsonParser.digitsNumber (utf8 (Nat.toDigits 10 m)) = m := by
  have hValue := digitsValue_toDigits m
  rw [JsonParser.digitsNumber,
    JsonParser.digitValues_utf8 (all_isDigit_toDigits m),
    List.foldl_map]
  exact hValue

/- A number that is no integer of 64 bits is a double. -/
theorem integer_lost
    {m : Nat}
    (h : m = 0 ∨ 2 ^ 63 < m) :
    ∃ x, JsonNumber.integer true m = .float x := by
  have hLost : ¬ (0 < m ∧ m ≤ 0x8000000000000000) := by
    omega
  rw [JsonNumber.integer, if_neg (by simp), if_neg hLost]
  split
  · exact ⟨_, rfl⟩
  · exact ⟨_, rfl⟩

/- The digits of an integer that is not kept. -/
theorem digits_of_lost
    {text : String}
    {n : Int}
    (hNumber : Number (utf8 text.toList) .int)
    (hRead : readInt? text = some n)
    (hLost : text = "-0" ∨ n < -2 ^ 63 ∨ 2 ^ 64 ≤ n) :
    ∃ negative m,
      utf8 text.toList =
          minusOf negative ++ utf8 (Nat.toDigits 10 m) ∧
        (negative = true ∧ (m = 0 ∨ 2 ^ 63 < m) ∨
          negative = false ∧ 2 ^ 64 ≤ m) := by
  by_cases hZero : text = "-0"
  · rw [hZero]
    exact ⟨true, 0, rfl, .inl ⟨rfl, .inl rfl⟩⟩
  · have hRange := hLost.resolve_left hZero
    rw [intText_of_readInt? hNumber hRead hZero]
    cases n with
    | ofNat m =>
        refine ⟨false, m, ?_, .inr ⟨rfl, ?_⟩⟩
        · rw [intText, String.toList_ofList]
          rfl
        · have hLarge : (m : Int) < -2 ^ 63 ∨ (2 : Int) ^ 64 ≤ m :=
            hRange
          omega
    | negSucc m =>
        refine ⟨true, m + 1, ?_, .inl ⟨rfl, .inr ?_⟩⟩
        · rw [intText, String.toList_ofList,
            utf8_cons_ascii _ (by decide)]
          rfl
        · omega

/- An integer that is not kept is parsed as a double. -/
theorem parse_int_lost
    {text : String}
    {n : Int}
    {w : Json}
    (hNumber : Number (utf8 text.toList) .int)
    (hRead : readInt? text = some n)
    (hLost : text = "-0" ∨ n < -2 ^ 63 ∨ 2 ^ 64 ≤ n)
    (hParse : Json.parse (utf8 text.toList) = .ok w) :
    ∃ x, w = .float x := by
  rcases digits_of_lost hNumber hRead hLost with
    ⟨negative, m, hText, hSize⟩
  rw [hText, ← List.append_nil (utf8 (Nat.toDigits 10 m))] at hParse
  rcases afterWhole_of_parse (whole_toDigits m) (by simp) hParse with
    ⟨value, dropped, c, c', hRun, hEnd, hFits⟩
  by_cases hDropped : dropped = 0
  · rcases hFits hDropped with ⟨hValue, hWord⟩
    rw [digitsNumber_toDigits] at hValue
    subst hDropped hValue
    rw [JsonParser.afterWhole_end hEnd] at hRun
    cases hRun
    rcases hSize with ⟨rfl, hLow⟩ | ⟨rfl, hHigh⟩
    · exact integer_lost hLow
    · rw [JsonNumber.greatestWord] at hWord
      omega
  · exact JsonParser.float_of_afterWhole (.inl hDropped) hRun

end TreeWire
