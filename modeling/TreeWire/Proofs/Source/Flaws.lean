import TreeWire.Proofs.Source.Assembly

/-
  The flaws that make a lexing fail, and where they are.

  A flaw is told by the bytes before the place that is blamed,
  the bytes read from there on, the bytes left, and a message.
  A string is blamed at its opening mark if it does not end or
  is no UTF-8, and else at the backslash or the byte that cannot
  stand in it.  A number and a word are blamed at their first
  byte.

  A lexing can also fail because its input cannot be read; such
  an error is at no place.

  Key definitions include:
    * `Flaw`
    * `Cursor.Fails`
    * `Lexeme.StringFlaw`
    * `Lexeme.NumberFlaw`
    * `Lexeme.LiteralFlaw`

  Main statements:
    * `Lexeme.escape_fails`
    * `Lexeme.string_fails`
    * `Lexeme.number_fails`
    * `Lexeme.word_fails`
-/

namespace TreeWire

open Grammar

/-
  Bytes before the place of an error, those read from there on,
  those left, and the message.
-/
abbrev Flaw :=
  List UInt8 → List UInt8 → List UInt8 → String → Prop

------------------------------------------------------------
-- Failures at a Place
------------------------------------------------------------

namespace Cursor

variable {F G : Flaw}
variable {c c₁ c' : Cursor}
variable {e : DecodeError}
variable {used : List UInt8}

/- A lexing has moved on and could not read further. -/
def Unreadable
    (c : Cursor)
    (e : DecodeError)
    (c' : Cursor) : Prop :=
  (∃ message, e = .here (.unreadable message)) ∧
    ∃ read, c.Reads read c'

/-
  A lexing has failed from a cursor on, with its input unreadable
  or at the place of a flaw.
-/
inductive Fails
    (F : Flaw)
    (c : Cursor) : DecodeError → Cursor → Prop where
  | unreadable
      {e : DecodeError}
      {c' : Cursor}
      (h : c.Unreadable e c') :
      Fails F c e c'
  | flaw
      {c₁ c' : Cursor}
      {before read : List UInt8}
      {message : String}
      (hBefore : c.Reads before c₁)
      (hRead : c₁.Reads read c')
      (hFlaw : F before read c'.unread message) :
      Fails F c (.here (.malformed message (some c₁.position))) c'

theorem Unreadable.behind
    (hUsed : c.Reads used c₁)
    (h : c₁.Unreadable e c') :
    c.Unreadable e c' := by
  rcases h with ⟨hMessage, read, hRead⟩
  exact ⟨hMessage, used ++ read, hUsed.append hRead⟩

/- A flaw behind bytes that were read before. -/
theorem Fails.behind
    (hUsed : c.Reads used c₁)
    (h : c₁.Fails F e c')
    (hFlaw :
      ∀ {before read rest message},
        F before read rest message →
        G (used ++ before) read rest message) :
    c.Fails G e c' := by
  cases h with
  | unreadable h => exact .unreadable (h.behind hUsed)
  | flaw hBefore hRead h =>
      exact .flaw (hUsed.append hBefore) hRead (hFlaw h)

/- A flaw at the next byte. -/
theorem Fails.next
    {message : String}
    (hFlaw : F [] [] c.unread message) :
    c.Fails F (.here (.malformed message (some c.position))) c :=
  .flaw (Reads.nil_iff.mpr rfl) (Reads.nil_iff.mpr rfl) hFlaw

/- A cursor moves on, whether or not there is a flaw. -/
theorem Fails.reads
    (h : c.Fails F e c') :
    ∃ read, c.Reads read c' := by
  cases h with
  | unreadable h => exact h.2
  | flaw hBefore hRead _ => exact ⟨_, hBefore.append hRead⟩

theorem peek_error
    (h : peek c = (.error e, c')) :
    c.Unreadable e c' := by
  rcases c with ⟨_ | ⟨b, rest⟩, _ | message, position⟩
  · cases h
  · cases h
    exact ⟨⟨message, rfl⟩, [], Reads.nil_iff.mpr rfl⟩
  · cases h
  · cases h

theorem bump_error
    (h : bump c = (.error e, c')) :
    c.Unreadable e c' := by
  rcases c with ⟨_ | ⟨b, rest⟩, _ | message, position⟩
  · cases h
  · cases h
    exact ⟨⟨message, rfl⟩, [], Reads.nil_iff.mpr rfl⟩
  · cases h
  · cases h

/- There is no byte to be read at the end only. -/
theorem bump_none
    (h : bump c = (.ok none, c')) :
    c' = c ∧ c.unread = [] := by
  rcases c with ⟨_ | ⟨b, rest⟩, _ | message, position⟩
  · cases h
    exact ⟨rfl, rfl⟩
  · cases h
  · cases h
  · cases h

theorem takeWhile_error
    {test : UInt8 → Bool}
    (h : takeWhile test c = (.error e, c')) :
    c.Unreadable e c' := by
  have hPast : c.Reads (c.unread.takeWhile test) (c.past test) :=
    ⟨List.takeWhile_append_dropWhile.symm, rfl, rfl⟩
  rw [takeWhile_apply] at h
  rw [Action.bind_eq_error_iff] at h
  rcases h with hPeek | ⟨_, _, _, hPure⟩
  · exact (peek_error hPeek).behind hPast
  · cases hPure

end Cursor

namespace Lexeme

variable {c c₁ c' : Cursor}
variable {e : DecodeError}
variable {place : Position}

theorem blanks_error
    (h : blanks c = (.error e, c')) :
    c.Unreadable e c' := by
  rw [blanks, Action.bind_eq_error_iff] at h
  rcases h with hTake | ⟨used, c₁, hTake, hPeek⟩
  · exact Cursor.takeWhile_error hTake
  · exact (Cursor.peek_error hPeek).behind
      (Cursor.takeWhile_eq_ok_iff.mp hTake).1

------------------------------------------------------------
-- Escapes
------------------------------------------------------------

/- What can be said of bytes that are no escape. -/
def escapeMessages : List String :=
  ["invalid escape sequence", "invalid \\u escape",
    "unpaired surrogate in \\u escape"]

/-
  All errors of a lexing blame one place with one of some
  messages, or say that the input cannot be read.
-/
def Blames
    {α : Type}
    (place : Position)
    (messages : List String)
    (action : Lexing α) : Prop :=
  ∀ ⦃c e c'⦄, action c = (.error e, c') →
    (∃ message, e = .here (.unreadable message)) ∨
      ∃ message ∈ messages,
        e = .here (.malformed message (some place))

section

variable {α β : Type}
variable {messages : List String}

theorem blames_pure
    (a : α) :
    Blames place messages (pure a) := by
  intro c e c' h
  cases h

theorem blames_bump :
    Blames place messages Cursor.bump :=
  fun _ _ _ h => .inl (Cursor.bump_error h).1

theorem blames_malformed
    {message : String}
    (hMem : message ∈ messages) :
    Blames place messages
      (Cursor.malformed (α := α) message place) := by
  intro c e c' h
  cases h
  exact .inr ⟨message, hMem, rfl⟩

theorem blames_bind
    {x : Lexing α}
    {f : α → Lexing β}
    (hFirst : Blames place messages x)
    (hRest : ∀ a, Blames place messages (f a)) :
    Blames place messages (x >>= f) := by
  intro c e c' h
  rw [Action.bind_eq_error_iff] at h
  rcases h with hx | ⟨a, c₁, _, hf⟩
  · exact hFirst hx
  · exact hRest a hf

end

theorem blames_hexNumber
    (place : Position)
    (value count : Nat) :
    Blames place escapeMessages (hexNumber place value count) := by
  induction count generalizing value with
  | zero => exact blames_pure value
  | succ count ih =>
      refine blames_bind blames_bump fun next => ?_
      split
      · exact ih _
      · exact blames_malformed (by decide)

theorem blames_lowSurrogate
    (place : Position) :
    Blames place escapeMessages (lowSurrogate place) := by
  have hUnpaired :
      Blames place escapeMessages (unpaired (α := Nat) place) :=
    blames_malformed (by decide)
  refine blames_bind blames_bump fun first => ?_
  split
  · exact hUnpaired
  · refine blames_bind blames_bump fun second => ?_
    split
    · exact hUnpaired
    · refine blames_bind (blames_hexNumber _ _ _) fun low => ?_
      split
      · exact blames_pure low
      · exact hUnpaired

theorem blames_unicodeEscape
    (place : Position) :
    Blames place escapeMessages (unicodeEscape place) := by
  refine blames_bind (blames_hexNumber _ _ _) fun first => ?_
  split
  · exact blames_bind (blames_lowSurrogate place)
      fun _ => blames_pure _
  · split
    · exact blames_malformed (by decide)
    · exact blames_pure _

theorem blames_escape
    (place : Position) :
    Blames place escapeMessages (escape place) := by
  refine blames_bind blames_bump fun next => ?_
  split
  case h_9 => exact blames_unicodeEscape place
  case h_10 => exact blames_malformed (by decide)
  all_goals exact blames_pure _

/- No escape stands at the start of bytes. -/
def NoEscape
    (bytes : List UInt8) : Prop :=
  ∀ {escaped ch}, Escape escaped ch → ¬ escaped <+: bytes

/- An escape fails, from its backslash, where none stands. -/
theorem escape_fails
    {b : Cursor}
    (hBackslash : b.Reads [0x5c] c)
    (h : escape b.position c = (.error e, c')) :
    b.Unreadable e c' ∨
      ∃ message ∈ escapeMessages, ∃ more,
        e = .here (.malformed message (some b.position)) ∧
          b.Reads (0x5c :: more) c' ∧
          NoEscape (0x5c :: (more ++ c'.unread)) := by
  rcases (built_escape b.position).reads c with ⟨more, hMore⟩
  rw [h] at hMore
  have hRead : b.Reads (0x5c :: more) c' := hBackslash.append hMore
  rcases blames_escape b.position h with
    hUnreadable | ⟨message, hMem, hError⟩
  · exact .inl ⟨hUnreadable, _, hRead⟩
  · refine .inr ⟨message, hMem, more, hError, hRead, ?_⟩
    -- Where an escape stands, it would have been read.
    intro escaped ch hEscape hPrefix
    rcases escape_eq_cons hEscape with ⟨bytes, rfl⟩
    rcases (List.cons_prefix_cons.mp hPrefix).2 with ⟨rest, hAll⟩
    rw [← hMore.unread] at hAll
    rcases Cursor.Reads.of_unread hAll.symm with ⟨c₂, hReads, _⟩
    have hOk : escape b.position c = (.ok ch, c₂) :=
      escape_eq_ok_iff.mpr ⟨bytes, hReads, hEscape⟩
    rw [h] at hOk
    cases hOk

------------------------------------------------------------
-- Strings
------------------------------------------------------------

/- The inside of a string that goes on. -/
theorem contents_append
    {bytes out more out' : List UInt8}
    (h : Contents bytes out)
    (hMore : Contents more out') :
    Contents (bytes ++ more) (out ++ out') := by
  induction h with
  | nil => exact hMore
  | byte hQuote hBackslash hControl _ ih =>
      exact .byte hQuote hBackslash hControl ih
  | escape hEscape _ ih =>
      rw [List.append_assoc, List.append_assoc]
      exact .escape hEscape ih

/- Why there is no string, and where the fault is. -/
inductive StringFlaw : Flaw where
  | unterminated
      {inner out : List UInt8}
      (hContents : Contents inner out) :
      StringFlaw [] (0x22 :: inner) [] "unterminated string"
  | notText
      {inner out rest : List UInt8}
      (hContents : Contents inner out)
      (hText : ∀ text : String, out ≠ utf8 text.toList) :
      StringFlaw [] (0x22 :: (inner ++ [0x22])) rest
        "invalid UTF-8 in string"
  | escape
      {inner out more rest : List UInt8}
      {message : String}
      (hContents : Contents inner out)
      (hMessage : message ∈ escapeMessages)
      (hEscape : NoEscape (0x5c :: (more ++ rest))) :
      StringFlaw (0x22 :: inner) (0x5c :: more) rest message
  | control
      {inner out rest : List UInt8}
      {b : UInt8}
      (hContents : Contents inner out)
      (hControl : b < 0x20) :
      StringFlaw (0x22 :: inner) [b] rest
        "control character in string"

/-
  Why a round of a string fails: the end, an escape or a control
  character; or the rounds after it do, behind an escape or a
  plain byte.
-/
inductive RoundFails
    (start : Position)
    (done rounds : List UInt8)
    (c : Cursor) : DecodeError → Cursor → Prop where
  | unreadable
      {e : DecodeError}
      {c' : Cursor}
      (h : c.Unreadable e c') :
      RoundFails start done rounds c e c'
  | unterminated
      (hNil : c.unread = []) :
      RoundFails start done rounds c
        (.here (.malformed "unterminated string" (some start))) c
  | escape
      {c₁ c' : Cursor}
      {e : DecodeError}
      (hBackslash : c.Reads [0x5c] c₁)
      (h : Lexeme.escape c.position c₁ = (.error e, c')) :
      RoundFails start done rounds c e c'
  | control
      {b : UInt8}
      {c' : Cursor}
      (hByte : c.Reads [b] c')
      (hControl : b < 0x20) :
      RoundFails start done rounds c
        (.here (.malformed "control character in string"
          (some c.position))) c'
  | further
      {item out done' : List UInt8}
      {c₁ c' : Cursor}
      {e : DecodeError}
      (hItem : c.Reads item c₁)
      (hUsed : item ≠ [])
      (hContents : Contents item out)
      (h : stringBytes start done' rounds c₁ = (.error e, c')) :
      RoundFails start done rounds c e c'

theorem stringBytes_cons_error
    {start : Position}
    {done rounds : List UInt8}
    {b₀ : UInt8}
    (h :
      stringBytes start done (b₀ :: rounds) c = (.error e, c')) :
    RoundFails start done rounds c e c' := by
  rw [stringBytes, Action.bind_eq_error_iff] at h
  rcases h with hPlace | ⟨place, c₁, hPlace, h⟩
  · cases hPlace
  · cases hPlace
    rw [Action.bind_eq_error_iff] at h
    rcases h with hBump | ⟨next, c₂, hBump, h⟩
    · exact .unreadable (Cursor.bump_error hBump)
    · cases next with
      | none =>
          rcases Cursor.bump_none hBump with ⟨rfl, hNil⟩
          cases h
          exact .unterminated hNil
      | some b =>
          have hByte := Cursor.bump_some_iff.mp hBump
          dsimp only at h
          by_cases hQuote : b = 0x22
          · rw [if_pos hQuote] at h
            cases h
          · rw [if_neg hQuote] at h
            by_cases hBackslash : b = 0x5c
            · rw [if_pos hBackslash, Action.bind_eq_error_iff] at h
              subst hBackslash
              rcases h with hEscape | ⟨ch, c₃, hEscape, h⟩
              · exact .escape hByte hEscape
              · rcases escape_eq_ok_iff.mp hEscape with
                  ⟨escaped, hReads, hEscape⟩
                have hContents := Contents.escape hEscape .nil
                rw [List.append_nil] at hContents
                exact .further (hByte.append hReads) (by simp)
                  hContents h
            · rw [if_neg hBackslash] at h
              by_cases hControl : b < 0x20
              · rw [if_pos hControl] at h
                cases h
                exact .control hByte hControl
              · rw [if_neg hControl] at h
                exact .further hByte (by simp)
                  (.byte hQuote hBackslash (UInt8.not_lt.mp hControl)
                    .nil) h

/- The end of the input within a string. -/
theorem unterminated_fails
    {q : Cursor}
    {inner out : List UInt8}
    (hInner : q.Reads (0x22 :: inner) c)
    (hContents : Contents inner out)
    (hNil : c.unread = []) :
    q.Fails StringFlaw
      (.here (.malformed "unterminated string" (some q.position)))
      c := by
  refine .flaw (Cursor.Reads.nil_iff.mpr rfl) hInner ?_
  rw [hNil]
  exact .unterminated hContents

/-
  The rest of a string fails.  The induction is on the rounds;
  what was read before them is a string that goes on.
-/
theorem stringBytes_fails
    {q : Cursor}
    {inner out done rounds : List UInt8}
    (hInner : q.Reads (0x22 :: inner) c)
    (hContents : Contents inner out)
    (hRounds : c.unread.length ≤ rounds.length)
    (h : stringBytes q.position done rounds c = (.error e, c')) :
    q.Fails StringFlaw e c' := by
  induction rounds generalizing c inner out done with
  | nil =>
      have hNil := List.length_eq_zero_iff.mp (Nat.le_zero.mp hRounds)
      rw [stringBytes, Action.bind_eq_error_iff] at h
      rcases h with hPeek | ⟨next, c₁, hPeek, h⟩
      · exact .unreadable ((Cursor.peek_error hPeek).behind hInner)
      · rcases Cursor.peek_eq_ok_iff.mp hPeek with ⟨rfl, _, _⟩
        cases h
        exact unterminated_fails hInner hContents hNil
  | cons b₀ rounds ih =>
      cases stringBytes_cons_error h with
      | unreadable h => exact .unreadable (h.behind hInner)
      | unterminated hNil =>
          exact unterminated_fails hInner hContents hNil
      | escape hBackslash h =>
          rcases escape_fails hBackslash h with
            hUnreadable | ⟨message, hMem, more, rfl, hRead, hNone⟩
          · exact .unreadable (hUnreadable.behind hInner)
          · exact .flaw hInner hRead (.escape hContents hMem hNone)
      | control hByte hControl =>
          exact .flaw hInner hByte (.control hContents hControl)
      | further hItem hUsed hMore h =>
          refine ih (hInner.append hItem)
            (contents_append hContents hMore) ?_ h
          have hPos := List.length_pos_iff.mpr hUsed
          rw [hItem.unread, List.length_append] at hRounds
          simp only [List.length_cons] at hRounds
          omega

/- A string fails at its opening mark or inside. -/
theorem string_fails
    (hHead : c.unread.head? = some 0x22)
    (h : string c = (.error e, c')) :
    c.Fails StringFlaw e c' := by
  unfold string at h
  rw [Action.bind_eq_error_iff] at h
  rcases h with hPlace | ⟨start, c₀, hPlace, h⟩
  · cases hPlace
  · cases hPlace
    rw [Action.bind_eq_error_iff] at h
    rcases h with hBump | ⟨next, c₁, hBump, h⟩
    · exact .unreadable (Cursor.bump_error hBump)
    · have hQuote := Cursor.bump_of_head? hHead hBump
      rw [Action.bind_eq_error_iff] at h
      rcases h with hAhead | ⟨rounds, c₂, hAhead, h⟩
      · cases hAhead
      · cases hAhead
        rw [Action.bind_eq_error_iff] at h
        rcases h with hBytes | ⟨bytes, c₂, hBytes, h⟩
        · exact stringBytes_fails hQuote .nil (Nat.le_refl _) hBytes
        · rcases (stringBytes_eq_ok_iff (Nat.le_refl _)).mp hBytes
            with ⟨inner, out, hReads, hContents, hOut⟩
          rw [List.reverse_nil, List.nil_append] at hOut
          subst hOut
          cases hText : utf8Text? bytes with
          | some text =>
              simp only [hText] at h
              cases h
          | none =>
              simp only [hText] at h
              cases h
              refine .flaw (Cursor.Reads.nil_iff.mpr rfl)
                (hQuote.append hReads) (.notText hContents ?_)
              intro text hEq
              rw [utf8Text?_eq_some_iff.mpr hEq] at hText
              cases hText

------------------------------------------------------------
-- Numbers
------------------------------------------------------------

/- No digit comes next. -/
def NoDigit
    (rest : List UInt8) : Prop :=
  ∀ b, rest.head? = some b → isDigitByte b = false

/-
  What was read of a number where a digit is missing, and the
  message.
-/
inductive NumberFlaw : List UInt8 → String → Prop where
  | whole :
      NumberFlaw [0x2d] "invalid number: missing digits"
  | fraction
      {sign whole : List UInt8}
      (hSign : sign = [] ∨ sign = [0x2d])
      (hWhole : Whole whole) :
      NumberFlaw (sign ++ whole ++ [0x2e])
        "invalid number: expected digits after '.'"
  | exponent
      {sign whole fraction sign' : List UInt8}
      {mark : UInt8}
      (hSign : sign = [] ∨ sign = [0x2d])
      (hWhole : Whole whole)
      (hFraction : Fraction fraction)
      (hMark : mark = 0x65 ∨ mark = 0x45)
      (hSign' : sign' = [] ∨ sign' = [0x2b] ∨ sign' = [0x2d]) :
      NumberFlaw (sign ++ whole ++ fraction ++ mark :: sign')
        "invalid number: expected exponent digits"

theorem takeIf_error
    {test : UInt8 → Bool}
    (h : takeIf test c = (.error e, c')) :
    c.Unreadable e c' := by
  rw [takeIf, Action.bind_eq_error_iff] at h
  rcases h with hPeek | ⟨next, c₁, hPeek, h⟩
  · exact Cursor.peek_error hPeek
  · rcases Cursor.peek_eq_ok_iff.mp hPeek with ⟨rfl, _, _⟩
    cases next with
    | none => cases h
    | some b =>
        dsimp only at h
        split at h
        · rw [Action.bind_eq_error_iff] at h
          rcases h with hBump | ⟨_, _, _, h⟩
          · exact Cursor.bump_error hBump
          · cases h
        · cases h

/- Digits fail where there is none. -/
theorem digits_error
    {message : String}
    (h : digits message place c = (.error e, c')) :
    c.Unreadable e c' ∨
      e = .here (.malformed message (some place)) ∧ c' = c ∧
        NoDigit c.unread := by
  rw [digits, Action.bind_eq_error_iff] at h
  rcases h with hPeek | ⟨next, c₁, hPeek, h⟩
  · exact .inl (Cursor.peek_error hPeek)
  · rcases Cursor.peek_eq_ok_iff.mp hPeek with ⟨rfl, rfl, _⟩
    cases hHead : c₁.unread.head? with
    | none =>
        rw [hHead] at h
        cases h
        refine .inr ⟨rfl, rfl, ?_⟩
        rw [NoDigit, hHead]
        exact nofun
    | some b =>
        rw [hHead] at h
        dsimp only at h
        split at h
        · exact .inl (Cursor.takeWhile_error h)
        · rename_i hDigit
          cases h
          refine .inr ⟨rfl, rfl, ?_⟩
          rw [NoDigit, hHead]
          intro b' hEq
          cases hEq
          simpa using hDigit

theorem wholePart_error
    (h : wholePart place c = (.error e, c')) :
    c.Unreadable e c' ∨
      e = .here (.malformed "invalid number: missing digits"
        (some place)) ∧ c' = c ∧ NoDigit c.unread := by
  rw [wholePart, Action.bind_eq_error_iff] at h
  rcases h with hPeek | ⟨next, c₁, hPeek, h⟩
  · exact .inl (Cursor.peek_error hPeek)
  · rcases Cursor.peek_eq_ok_iff.mp hPeek with ⟨rfl, _, _⟩
    split at h
    · exact .inl (takeIf_error h)
    · exact digits_error h

theorem fraction_error
    (h : fraction place c = (.error e, c')) :
    c.Unreadable e c' ∨
      e = .here (.malformed
        "invalid number: expected digits after '.'" (some place)) ∧
        c.Reads [0x2e] c' ∧ NoDigit c'.unread := by
  rw [fraction, Action.bind_eq_error_iff] at h
  rcases h with hPoint | ⟨point, c₁, hPoint, h⟩
  · exact .inl (takeIf_error hPoint)
  · rcases takeIf_eq_ok_iff.mp hPoint with ⟨_, hReads, hCase⟩
    rcases hCase with ⟨b, rfl, hTest⟩ | ⟨rfl, _⟩
    · cases beq_iff_eq.mp hTest
      rw [Action.bind_eq_error_iff] at h
      rcases h with hDigits | ⟨_, _, _, h⟩
      · rcases digits_error hDigits with
          hUnreadable | ⟨rfl, rfl, hNone⟩
        · exact .inl (hUnreadable.behind hReads)
        · exact .inr ⟨rfl, hReads, hNone⟩
      · cases h
    · cases h

theorem exponent_error
    (h : exponent place c = (.error e, c')) :
    c.Unreadable e c' ∨
      e = .here (.malformed
        "invalid number: expected exponent digits" (some place)) ∧
        ∃ mark sign,
          (mark = 0x65 ∨ mark = 0x45) ∧
            (sign = [] ∨ sign = [0x2b] ∨ sign = [0x2d]) ∧
            c.Reads (mark :: sign) c' ∧ NoDigit c'.unread := by
  rw [exponent, Action.bind_eq_error_iff] at h
  rcases h with hMark | ⟨mark, c₁, hMark, h⟩
  · exact .inl (takeIf_error hMark)
  · rcases takeIf_eq_ok_iff.mp hMark with ⟨_, hReads, hCase⟩
    rcases hCase with ⟨b, rfl, hTest⟩ | ⟨rfl, _⟩
    · rw [Action.bind_eq_error_iff] at h
      rcases h with hSign | ⟨sign, c₂, hSign, h⟩
      · exact .inl ((takeIf_error hSign).behind hReads)
      · rcases takeIf_eq_ok_iff.mp hSign with ⟨_, hReads₂, hCase⟩
        have hAll : c.Reads (b :: sign) c₂ := hReads.append hReads₂
        rw [Action.bind_eq_error_iff] at h
        rcases h with hDigits | ⟨_, _, _, h⟩
        · rcases digits_error hDigits with
            hUnreadable | ⟨rfl, rfl, hNone⟩
          · exact .inl (hUnreadable.behind hAll)
          · refine .inr ⟨rfl, b, sign, by simpa using hTest, ?_,
              hAll, hNone⟩
            rcases hCase with ⟨b', rfl, hTest'⟩ | ⟨rfl, _⟩
            · simpa using hTest'
            · exact .inl rfl
        · cases h
    · cases h

/- Before what is no digit, a number starts with a sign. -/
theorem sign_of_noDigit
    {b : UInt8}
    {sign : List UInt8}
    (hHead : c.unread.head? = some b)
    (hStart : b = 0x2d ∨ isDigitByte b = true)
    (hSign : takeIf (· == 0x2d) c = (.ok sign, c'))
    (hNone : NoDigit c'.unread) :
    sign = [0x2d] := by
  rcases takeIf_eq_ok_iff.mp hSign with ⟨_, hReads, hCase⟩
  rcases hCase with ⟨b', rfl, hTest⟩ | ⟨rfl, hTest⟩
  · cases beq_iff_eq.mp hTest
    rfl
  · cases Cursor.Reads.nil_iff.mp hReads
    have hNoSign := hTest b hHead
    have hNoDigit := hNone b hHead
    rcases hStart with rfl | hDigit
    · cases hNoSign
    · rw [hDigit] at hNoDigit
      cases hNoDigit

/- A number fails where a digit is missing. -/
theorem number_fails
    {b : UInt8}
    (hHead : c.unread.head? = some b)
    (hStart : b = 0x2d ∨ isDigitByte b = true)
    (h : number c = (.error e, c')) :
    c.Unreadable e c' ∨
      ∃ message read,
        e = .here (.malformed message (some c.position)) ∧
          c.Reads read c' ∧ NumberFlaw read message ∧
          NoDigit c'.unread := by
  unfold number at h
  rw [Action.bind_eq_error_iff] at h
  rcases h with hPlace | ⟨place, c₀, hPlace, h⟩
  · cases hPlace
  · cases hPlace
    rw [Action.bind_eq_error_iff] at h
    rcases h with hSign | ⟨sign, c₁, hSign, h⟩
    · exact .inl (takeIf_error hSign)
    · rcases takeIf_eq_ok_iff.mp hSign with ⟨_, hReads, hCase⟩
      have hSign' : sign = [] ∨ sign = [0x2d] := by
        rcases hCase with ⟨b', rfl, hTest⟩ | ⟨rfl, _⟩
        · cases beq_iff_eq.mp hTest
          exact .inr rfl
        · exact .inl rfl
      rw [Action.bind_eq_error_iff] at h
      rcases h with hWhole | ⟨whole, c₂, hWhole, h⟩
      · rcases wholePart_error hWhole with
          hUnreadable | ⟨rfl, rfl, hNone⟩
        · exact .inl (hUnreadable.behind hReads)
        · cases sign_of_noDigit hHead hStart hSign hNone
          exact .inr ⟨_, _, rfl, hReads, .whole, hNone⟩
      · rcases wholePart_sound hWhole with ⟨hReads₁, hWhole⟩
        have hReads₂ := hReads.append hReads₁
        rw [Action.bind_eq_error_iff] at h
        rcases h with hPart | ⟨part, c₃, hPart, h⟩
        · rcases fraction_error hPart with
            hUnreadable | ⟨rfl, hPoint, hNone⟩
          · exact .inl (hUnreadable.behind hReads₂)
          · exact .inr ⟨_, _, rfl, hReads₂.append hPoint,
              .fraction hSign' hWhole, hNone⟩
        · rcases fraction_sound hPart with ⟨hReads₃, hPart⟩
          have hReads₄ := hReads₂.append hReads₃
          rw [Action.bind_eq_error_iff] at h
          rcases h with hPower | ⟨power, c₄, hPower, h⟩
          · rcases exponent_error hPower with
              hUnreadable | ⟨rfl, mark, sign', hMark, hSign₂,
                hMore, hNone⟩
            · exact .inl (hUnreadable.behind hReads₄)
            · exact .inr ⟨_, _, rfl, hReads₄.append hMore,
                .exponent hSign' hWhole hPart hMark hSign₂, hNone⟩
          · cases h

------------------------------------------------------------
-- Words
------------------------------------------------------------

theorem expectBytes_error
    {message : String}
    {bytes : List UInt8}
    (h :
      expectBytes (Cursor.malformed message place) bytes c =
        (.error e, c')) :
    (∃ message, e = .here (.unreadable message)) ∨
      e = .here (.malformed message (some place)) := by
  induction bytes generalizing c with
  | nil => cases h
  | cons b bytes ih =>
      rw [expectBytes, Action.bind_eq_error_iff] at h
      rcases h with hBump | ⟨next, c₁, _, h⟩
      · exact .inl (Cursor.bump_error hBump).1
      · split at h
        · exact ih h
        · cases h
          exact .inr rfl

/- The message on a word that is not there. -/
def wordMessage
    (text : String) : String :=
  "invalid literal, expected `" ++ text ++ "`"

/- A word fails where it does not stand. -/
theorem word_fails
    {text : String}
    {kind : LiteralKind}
    (h : word text kind c = (.error e, c')) :
    c.Unreadable e c' ∨
      ∃ read,
        e = .here (.malformed (wordMessage text)
          (some c.position)) ∧
          c.Reads read c' ∧
          ¬ utf8 text.toList <+: read ++ c'.unread := by
  rcases (built_word text kind).reads c with ⟨read, hRead⟩
  rw [h] at hRead
  have hErrors :
      (∃ message, e = .here (.unreadable message)) ∨
        e = .here (.malformed (wordMessage text)
          (some c.position)) := by
    unfold word at h
    rw [Action.bind_eq_error_iff] at h
    rcases h with hPlace | ⟨place, c₁, hPlace, h⟩
    · cases hPlace
    · cases hPlace
      rw [Action.bind_eq_error_iff] at h
      rcases h with hBytes | ⟨_, _, _, h⟩
      · exact expectBytes_error hBytes
      · cases h
  rcases hErrors with hUnreadable | hError
  · exact .inl ⟨hUnreadable, read, hRead⟩
  · refine .inr ⟨read, hError, hRead, ?_⟩
    -- Where the word stands, it would have been read.
    intro hPrefix
    rcases hPrefix with ⟨rest, hAll⟩
    rw [← hRead.unread] at hAll
    rcases Cursor.Reads.of_unread hAll.symm with ⟨c₂, hReads, _⟩
    have hOk : word text kind c = (.ok ⟨kind, text⟩, c₂) :=
      word_eq_ok_iff.mpr ⟨rfl, hReads⟩
    rw [h] at hOk
    cases hOk

------------------------------------------------------------
-- Literals
------------------------------------------------------------

/- Why there is no literal, and where the fault is. -/
inductive LiteralFlaw : Flaw where
  | string
      {before read rest : List UInt8}
      {message : String}
      (h : StringFlaw before read rest message) :
      LiteralFlaw before read rest message
  | number
      {read rest : List UInt8}
      {message : String}
      (h : NumberFlaw read message)
      (hDigit : NoDigit rest) :
      LiteralFlaw [] read rest message
  | word
      {text : String}
      {kind : LiteralKind}
      {read rest : List UInt8}
      (hMem : (text, kind) ∈ words)
      (hFirst : (read ++ rest).head? = (utf8 text.toList).head?)
      (hWord : ¬ utf8 text.toList <+: read ++ rest) :
      LiteralFlaw [] read rest (wordMessage text)

end Lexeme

end TreeWire
