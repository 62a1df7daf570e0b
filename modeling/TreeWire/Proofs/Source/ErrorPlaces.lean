import Mathlib.Data.List.DropRight
import Mathlib.Data.List.Induction
import TreeWire.Proofs.Source.Flaws
import TreeWire.Proofs.Source.ReachableStates

/-
  The places that a scanner names.

  The position of a scanner is the place behind the bytes that it
  has read: their number, the lines that they start, and the
  characters on the last of these lines.

  An error of malformed input names the place behind a part of
  these bytes.  Tokens run over the first of them, and the flaw
  is in what should be the next token: in a literal or a key, at
  a container too deep, or at the byte, or the end, that cannot
  stand there.

  Key definitions include:
    * `Position.after`
    * `Scanner.ValueFlaw`
    * `Scanner.KeyFlaw`
    * `Scanner.TokenFlaw`
    * `Scanner.TextFlaw`
    * `Scanner.ExactPlaces`

  Main statements:
    * `Position.foldl_advance`
    * `Scanner.token_fails`
    * `Scanner.stream_stands`
    * `scanner_places_exact`
-/

namespace TreeWire

open Grammar

------------------------------------------------------------
-- Positions
------------------------------------------------------------

namespace Position

/- Whether a byte is the first one of a character. -/
def startsColumn
    (b : UInt8) : Bool :=
  b &&& 0xc0 ≠ 0x80

/-
  The place behind bytes: a line more than there are line feeds,
  and a column more than there are characters behind the last of
  these.
-/
def after
    (bytes : List UInt8) : Position where
  line := 1 + bytes.count 0x0a
  column := 1 + (bytes.rtakeWhile (· ≠ 0x0a)).countP startsColumn
  offset := bytes.length

theorem after_concat
    (bytes : List UInt8)
    (b : UInt8) :
    after (bytes ++ [b]) = (after bytes).advance b := by
  unfold after advance
  rw [List.rtakeWhile_concat, List.count_append]
  by_cases hFeed : b = 0x0a
  · subst hFeed
    simp [Nat.add_assoc]
  · by_cases hContinues : b &&& 0xc0 = 0x80
    · simp [hFeed, hContinues, startsColumn]
    · simp [hFeed, hContinues, startsColumn, Nat.add_assoc]

/- Byte after byte a position comes behind all of them. -/
theorem foldl_advance
    (bytes : List UInt8) :
    bytes.foldl advance start = after bytes := by
  induction bytes using List.reverseRecOn with
  | nil => rfl
  | append_singleton bytes b ih =>
      rw [List.foldl_append, ih, after_concat]
      rfl

-- A character of two bytes on the second line is one column.
example :
    after [0x5b, 0x0a, 0xc3, 0xa9] =
      { line := 2, column := 2, offset := 4 } := by
  rfl

end Position

namespace Scanner

variable {α : Type}
variable {s s' : Scanner}
variable {e : DecodeError}
variable {limit : Nat}

------------------------------------------------------------
-- Flaws of Tokens
------------------------------------------------------------

/- What is found at the next byte, in words. -/
def foundText : Option UInt8 → String
  | some b => byteText b
  | none => "end of input"

/- The message on what should come next. -/
def unexpectedMessage
    (next : Option UInt8)
    (expected : String) : String :=
  "unexpected " ++ foundText next ++ ", expected " ++ expected

/- The next byte, if there is one, is no blank. -/
def NoBlank
    (rest : List UInt8) : Prop :=
  ∀ b, rest.head? = some b → Lexeme.isBlankByte b = false

/- The bytes with which a value starts. -/
def valueStarts : List UInt8 :=
  [0x7b, 0x5b, 0x22, 0x74, 0x66, 0x6e] ++ numberStarts

/- Why there is no value where one should be. -/
inductive ValueFlaw
    (limit : Nat)
    (frames : List Frame) : Flaw where
  | literal
      {before read rest : List UInt8}
      {message : String}
      (h : Lexeme.LiteralFlaw before read rest message) :
      ValueFlaw limit frames before read rest message
  | tooDeep
      {rest : List UInt8}
      (hOpener : rest.head? = some 0x7b ∨ rest.head? = some 0x5b)
      (hDeep : limit ≤ frames.length) :
      ValueFlaw limit frames [] [] rest (depthMessage limit)
  | unexpected
      {rest : List UInt8}
      (hStart : ∀ b ∈ valueStarts, rest.head? ≠ some b)
      (hBlank : NoBlank rest) :
      ValueFlaw limit frames [] [] rest
        (unexpectedMessage rest.head? "a value")

/- Why there is no key with its colon where one should be. -/
inductive KeyFlaw : Flaw where
  | string
      {before read rest : List UInt8}
      {message : String}
      (h : Lexeme.StringFlaw before read rest message) :
      KeyFlaw before read rest message
  | noKey
      {rest : List UInt8}
      (hQuote : rest.head? ≠ some 0x22)
      (hBlank : NoBlank rest) :
      KeyFlaw [] [] rest (unexpectedMessage rest.head? "object key")
  | noColon
      {quoted blanks rest : List UInt8}
      {name : String}
      (hKey : Quoted quoted name)
      (hBlanks : Blanks blanks)
      (hColon : rest.head? ≠ some 0x3a)
      (hBlank : NoBlank rest) :
      KeyFlaw (quoted ++ blanks) [] rest
        (unexpectedMessage rest.head? "':'")

/-
  Why there is no token at a point of the grammar, where one
  should be.
-/
inductive TokenFlaw
    (limit : Nat)
    (p : Point) : Flaw where
  | value
      {lead before read rest : List UInt8}
      {message : String}
      (hLead : ValueLead p.stage lead)
      (hClose :
        p.stage = .firstElement →
          (before ++ read ++ rest).head? ≠ some 0x5d)
      (h : ValueFlaw limit p.frames before read rest message) :
      TokenFlaw limit p (lead ++ before) read rest message
  | key
      {lead before read rest : List UInt8}
      {message : String}
      (hLead : KeyLead p.stage lead)
      (hClose :
        p.stage = .firstKey →
          (before ++ read ++ rest).head? ≠ some 0x7d)
      (h : KeyFlaw before read rest message) :
      TokenFlaw limit p (lead ++ before) read rest message
  | afterMember
      {blanks rest : List UInt8}
      (hStage : p.stage = .afterMember)
      (hBlanks : Blanks blanks)
      (hComma : rest.head? ≠ some 0x2c)
      (hClose : rest.head? ≠ some 0x7d)
      (hBlank : NoBlank rest) :
      TokenFlaw limit p blanks [] rest
        (unexpectedMessage rest.head? "',' or '\x7d'")
  | afterElement
      {blanks rest : List UInt8}
      (hStage : p.stage = .afterElement)
      (hBlanks : Blanks blanks)
      (hComma : rest.head? ≠ some 0x2c)
      (hClose : rest.head? ≠ some 0x5d)
      (hBlank : NoBlank rest) :
      TokenFlaw limit p blanks [] rest
        (unexpectedMessage rest.head? "',' or ']'")
  | afterDocument
      {blanks rest : List UInt8}
      (hStage : p.stage = .topDone)
      (hBlanks : Blanks blanks)
      (hMore : rest ≠ [])
      (hBlank : NoBlank rest) :
      TokenFlaw limit p blanks [] rest
        (unexpectedMessage rest.head? "end of input")

------------------------------------------------------------
-- Small Steps That Fail
------------------------------------------------------------

theorem lex_eq_error_iff
    {action : Lexing α} :
    lex action s = (.error e, s') ↔
      ∃ c, action s.cursor = (.error e, c) ∧
        s' = s.moved c s.point := by
  unfold lex
  rcases hAction : action s.cursor with ⟨result, c⟩
  constructor
  · intro h
    cases h
    exact ⟨c, rfl, rfl⟩
  · intro hParts
    rcases hParts with ⟨c', hError, rfl⟩
    cases hError
    rfl

/- What is unexpected is at the next byte. -/
theorem unexpected_apply
    (next : Option UInt8)
    (expected : String)
    (s : Scanner) :
    unexpected (α := α) next expected s =
      (.error (.here (.malformed (unexpectedMessage next expected)
        (some s.cursor.position))), s) := by
  cases next <;> rfl

/- Reading a byte that is there does not fail. -/
theorem bump_ne_error
    {c c' : Cursor}
    {b : UInt8}
    (hHead : c.unread.head? = some b) :
    Cursor.bump c ≠ (.error e, c') := by
  rcases c with ⟨_ | ⟨b', rest⟩, fault, position⟩
  · cases hHead
  · nofun

theorem closeContainer_ne_error
    {mark : Token}
    {b : UInt8}
    (hHead : s.cursor.unread.head? = some b) :
    closeContainer mark s ≠ (.error e, s') := by
  intro h
  unfold closeContainer at h
  rw [Action.bind_eq_error_iff] at h
  rcases h with hLex | ⟨_, _, _, h⟩
  · rcases lex_eq_error_iff.mp hLex with ⟨c, hBump, _⟩
    exact bump_ne_error hHead hBump
  · cases h

/- Where a container may close, only what does not close it fails. -/
theorem closing_error
    {mark : Token}
    {b : UInt8}
    {next : Option UInt8}
    {rest : Scanning Token}
    (h :
      (if next = some b then closeContainer mark else rest) s =
        (.error e, s'))
    (hNext : s.cursor.unread.head? = next) :
    next ≠ some b ∧ rest s = (.error e, s') := by
  subst hNext
  by_cases hHead : s.cursor.unread.head? = some b
  · rw [if_pos hHead] at h
    exact absurd h (closeContainer_ne_error hHead)
  · rw [if_neg hHead] at h
    exact ⟨hHead, h⟩

/- What is unexpected behind some bytes is a flaw behind them. -/
theorem unexpected_fails
    {F : Flaw}
    {before : List UInt8}
    {c : Cursor}
    {s₁ : Scanner}
    {next : Option UInt8}
    {expected : String}
    (hReads : s.cursor.Reads before c)
    (hFlaw : F before [] c.unread (unexpectedMessage next expected))
    (h : unexpected (α := α) next expected s₁ = (.error e, s'))
    (hCursor : s₁.cursor = c) :
    s.cursor.Fails F e s'.cursor := by
  subst hCursor
  rw [unexpected_apply] at h
  cases h
  exact .flaw hReads (Cursor.Reads.nil_iff.mpr rfl) hFlaw

theorem literal_error
    {lexeme : Lexing Literal}
    (h : literal lexeme s = (.error e, s')) :
    lexeme s.cursor = (.error e, s'.cursor) := by
  unfold literal at h
  rw [Action.bind_eq_error_iff] at h
  rcases h with hLex | ⟨_, _, _, h⟩
  · rcases lex_eq_error_iff.mp hLex with ⟨c, hError, rfl⟩
    exact hError
  · cases h

/- A container fails to open at its mark, beyond the limit. -/
theorem open_fails
    {frame : Frame}
    {stage : Stage}
    {mark : Token}
    (hOpener :
      s.cursor.unread.head? = some 0x7b ∨
        s.cursor.unread.head? = some 0x5b)
    (h :
      (do
        openContainer frame stage
        pure mark : Scanning Token) s = (.error e, s')) :
    s.cursor.Fails (ValueFlaw s.maxDepth s.frames) e s'.cursor := by
  rw [Action.bind_eq_error_iff] at h
  rcases h with hOpen | ⟨_, _, _, h⟩
  · by_cases hDeep : s.maxDepth ≤ s.frames.length
    · rw [openContainer_tooDeep frame stage hDeep] at hOpen
      cases hOpen
      exact .next (.tooDeep hOpener hDeep)
    · have hGet : (get : Scanning Scanner) s = (.ok s, s) := rfl
      unfold openContainer at hOpen
      rw [Action.bind_ok hGet, if_neg hDeep,
        Action.bind_eq_error_iff] at hOpen
      rcases hOpen with hLex | ⟨_, _, _, h⟩
      · rcases lex_eq_error_iff.mp hLex with ⟨c, hBump, _⟩
        rcases hOpener with hHead | hHead
        · exact absurd hBump (bump_ne_error hHead)
        · exact absurd hBump (bump_ne_error hHead)
      · cases h
  · cases h

------------------------------------------------------------
-- Values and Keys
------------------------------------------------------------

theorem string_value_fails
    (hHead : s.cursor.unread.head? = some 0x22)
    (h :
      literal (do pure ⟨.string, ← Lexeme.string⟩) s =
        (.error e, s')) :
    s.cursor.Fails (ValueFlaw s.maxDepth s.frames) e s'.cursor := by
  have hLit := literal_error h
  rw [Action.bind_eq_error_iff] at hLit
  rcases hLit with hString | ⟨_, _, _, hPure⟩
  · have hFails := Lexeme.string_fails hHead hString
    exact hFails.behind (Cursor.Reads.nil_iff.mpr rfl)
      fun hFlaw => .literal (.string hFlaw)
  · cases hPure

theorem word_value_fails
    {text : String}
    {kind : LiteralKind}
    (hMem : (text, kind) ∈ words)
    (hHead : s.cursor.unread.head? = (utf8 text.toList).head?)
    (h : literal (Lexeme.word text kind) s = (.error e, s')) :
    s.cursor.Fails (ValueFlaw s.maxDepth s.frames) e s'.cursor := by
  rcases Lexeme.word_fails (literal_error h) with
    hUnreadable | ⟨read, rfl, hRead, hWord⟩
  · exact .unreadable hUnreadable
  · rw [hRead.unread] at hHead
    exact .flaw (Cursor.Reads.nil_iff.mpr rfl) hRead
      (.literal (.word hMem hHead hWord))

theorem number_value_fails
    {b : UInt8}
    (hHead : s.cursor.unread.head? = some b)
    (hStart : b = 0x2d ∨ Lexeme.isDigitByte b = true)
    (h : literal Lexeme.number s = (.error e, s')) :
    s.cursor.Fails (ValueFlaw s.maxDepth s.frames) e s'.cursor := by
  rcases Lexeme.number_fails hHead hStart (literal_error h) with
    hUnreadable | ⟨message, read, rfl, hRead, hFlaw, hDigit⟩
  · exact .unreadable hUnreadable
  · exact .flaw (Cursor.Reads.nil_iff.mpr rfl) hRead
      (.literal (.number hFlaw hDigit))

/- Each byte with which a number starts is a minus or a digit. -/
theorem number_start
    {b : UInt8}
    (h : b ∈ numberStarts) :
    b = 0x2d ∨ Lexeme.isDigitByte b = true := by
  have hAll :
      (numberStarts.all fun b =>
        b == 0x2d || Lexeme.isDigitByte b) = true := by
    decide
  have hByte := List.all_eq_true.mp hAll b h
  rwa [Bool.or_eq_true, beq_iff_eq] at hByte

/- A value fails with a flaw that makes it none. -/
theorem value_fails
    (hBlank : NoBlank s.cursor.unread)
    (h : value s = (.error e, s')) :
    s.cursor.Fails (ValueFlaw s.maxDepth s.frames) e s'.cursor := by
  unfold value at h
  rw [Action.bind_eq_error_iff] at h
  rcases h with hLex | ⟨next, s₁, hLex, h⟩
  · rcases lex_eq_error_iff.mp hLex with ⟨c, hPeek, rfl⟩
    exact .unreadable (Cursor.peek_error hPeek)
  · rcases lex_eq_ok_iff.mp hLex with ⟨c, hPeek, rfl⟩
    rcases Cursor.peek_eq_ok_iff.mp hPeek with ⟨rfl, hHead, _⟩
    split at h
    · exact open_fails (.inl hHead.symm) h
    · exact open_fails (.inr hHead.symm) h
    · exact string_value_fails hHead.symm h
    · refine word_value_fails ?_ (hHead.symm.trans ?_) h <;> decide
    · refine word_value_fails ?_ (hHead.symm.trans ?_) h <;> decide
    · refine word_value_fails ?_ (hHead.symm.trans ?_) h <;> decide
    · rename_i b hObject hArray hQuote hTrue hFalse hNull
      split at h
      · rename_i hStart
        exact number_value_fails hHead.symm (by simpa using hStart) h
      · rename_i hStart
        rw [unexpected_apply, hHead] at h
        cases h
        refine .next (.unexpected ?_ hBlank)
        intro b' hMem hSame
        rw [← hHead, Option.some_inj] at hSame
        subst hSame
        rcases List.mem_append.mp hMem with hMark | hNumber
        · simp only [List.mem_cons, List.not_mem_nil, or_false]
            at hMark
          rcases hMark with rfl | rfl | rfl | rfl | rfl | rfl
          · exact hObject rfl
          · exact hArray rfl
          · exact hQuote rfl
          · exact hTrue rfl
          · exact hFalse rfl
          · exact hNull rfl
        · exact hStart (by simpa using number_start hNumber)
    · rw [unexpected_apply, hHead] at h
      cases h
      refine .next (.unexpected ?_ hBlank)
      intro b _ hSame
      rw [← hHead] at hSame
      cases hSame

/- A key fails with a flaw that makes it none. -/
theorem key_fails
    (hBlank : NoBlank s.cursor.unread)
    (h : key s.cursor.unread.head? s = (.error e, s')) :
    s.cursor.Fails KeyFlaw e s'.cursor := by
  unfold key at h
  by_cases hHead : s.cursor.unread.head? = some 0x22
  · rw [if_pos hHead, Action.bind_eq_error_iff] at h
    rcases h with hLex | ⟨name, s₁, hLex, h⟩
    · rcases lex_eq_error_iff.mp hLex with ⟨c, hString, rfl⟩
      exact (Lexeme.string_fails hHead hString).behind
        (Cursor.Reads.nil_iff.mpr rfl) fun hFlaw => .string hFlaw
    · rcases lex_eq_ok_iff.mp hLex with ⟨c₁, hString, rfl⟩
      rcases (Lexeme.string_eq_ok_iff hHead).mp hString with
        ⟨quoted, hReads, hQuoted⟩
      rw [Action.bind_eq_error_iff] at h
      rcases h with hLex | ⟨after, s₂, hLex, h⟩
      · rcases lex_eq_error_iff.mp hLex with ⟨c₂, hBlanks, rfl⟩
        exact .unreadable
          ((Lexeme.blanks_error hBlanks).behind hReads)
      · rcases lex_eq_ok_iff.mp hLex with ⟨c₂, hAfter, rfl⟩
        rcases Lexeme.blanks_eq_ok_iff.mp hAfter with
          ⟨blanks, hReads₁, hBlanks, rfl, hEnd, _⟩
        by_cases hColon : c₂.unread.head? = some 0x3a
        · rw [if_pos hColon, Action.bind_eq_error_iff] at h
          rcases h with hLex | ⟨_, _, _, h⟩
          · rcases lex_eq_error_iff.mp hLex with ⟨c₃, hBump, _⟩
            exact absurd hBump (bump_ne_error hColon)
          · cases h
        · rw [if_neg hColon] at h
          exact unexpected_fails (hReads.append hReads₁)
            (.noColon hQuoted hBlanks hColon hEnd) h rfl
  · rw [if_neg hHead, unexpected_apply] at h
    cases h
    exact .next (.noKey hHead hBlank)

------------------------------------------------------------
-- Tokens
------------------------------------------------------------

/- A value that fails behind what may stand before it. -/
theorem lead_value_fails
    {lead : List UInt8}
    {c : Cursor}
    {stage : Stage}
    (hReads : s.cursor.Reads lead c)
    (hLead : ValueLead s.stage lead)
    (hBlank : NoBlank c.unread)
    (hClose :
      s.stage = .firstElement → c.unread.head? ≠ some 0x5d)
    (h : value (s.moved c ⟨stage, s.frames⟩) = (.error e, s')) :
    s.cursor.Fails (TokenFlaw s.maxDepth s.point) e s'.cursor := by
  have hFails := value_fails hBlank h
  cases hFails with
  | unreadable h => exact .unreadable (h.behind hReads)
  | flaw hBefore hRead hFlaw =>
      have hAll := (hBefore.append hRead).unread
      dsimp only [moved] at hAll
      exact .flaw (hReads.append hBefore) hRead
        (.value hLead (fun hStage => hAll ▸ hClose hStage) hFlaw)

/- A key that fails behind what may stand before it. -/
theorem lead_key_fails
    {lead : List UInt8}
    {c : Cursor}
    {stage : Stage}
    (hReads : s.cursor.Reads lead c)
    (hLead : KeyLead s.stage lead)
    (hBlank : NoBlank c.unread)
    (hClose : s.stage = .firstKey → c.unread.head? ≠ some 0x7d)
    (h :
      key c.unread.head? (s.moved c ⟨stage, s.frames⟩) =
        (.error e, s')) :
    s.cursor.Fails (TokenFlaw s.maxDepth s.point) e s'.cursor := by
  have hFails := key_fails (s := s.moved c ⟨stage, s.frames⟩) hBlank h
  cases hFails with
  | unreadable h => exact .unreadable (h.behind hReads)
  | flaw hBefore hRead hFlaw =>
      have hAll := (hBefore.append hRead).unread
      dsimp only [moved] at hAll
      exact .flaw (hReads.append hBefore) hRead
        (.key hLead (fun hStage => hAll ▸ hClose hStage) hFlaw)

/- A failure at a comma or behind the blanks after it. -/
theorem comma_fails
    {F : Flaw}
    {stage : Stage}
    {blanks : List UInt8}
    {c : Cursor}
    {rest : Option UInt8 → Scanning Token}
    (hReads : s.cursor.Reads blanks c)
    (hComma : c.unread.head? = some 0x2c)
    (hRest :
      ∀ {after c'},
        s.cursor.Reads (blanks ++ 0x2c :: after) c' →
        Blanks after →
        NoBlank c'.unread →
        rest c'.unread.head? (s.moved c' ⟨stage, s.frames⟩) =
          (.error e, s') →
        s.cursor.Fails F e s'.cursor)
    (h :
      (do
        let _ ← lex Cursor.bump
        setStage stage
        let next ← lex Lexeme.blanks
        rest next : Scanning Token) (s.moved c s.point) =
          (.error e, s')) :
    s.cursor.Fails F e s'.cursor := by
  rw [Action.bind_eq_error_iff] at h
  rcases h with hLex | ⟨next, s₁, hLex, h⟩
  · rcases lex_eq_error_iff.mp hLex with ⟨c₁, hBump, _⟩
    exact absurd hBump (bump_ne_error hComma)
  · rcases lex_eq_ok_iff.mp hLex with ⟨c₁, hBump, rfl⟩
    have hByte := hReads.append (Cursor.bump_of_head? hComma hBump)
    rw [Action.bind_eq_error_iff] at h
    rcases h with hStage | ⟨_, s₂, hStage, h⟩
    · cases hStage
    · cases hStage
      rw [Action.bind_eq_error_iff] at h
      rcases h with hLex | ⟨next, s₃, hLex, h⟩
      · rcases lex_eq_error_iff.mp hLex with ⟨c₂, hBlanks, rfl⟩
        exact .unreadable
          ((Lexeme.blanks_error hBlanks).behind hByte)
      · rcases lex_eq_ok_iff.mp hLex with ⟨c₂, hAhead, rfl⟩
        rcases Lexeme.blanks_eq_ok_iff.mp hAhead with
          ⟨after, hAfter, hBlanks, rfl, hEnd, _⟩
        have hAll := hByte.append hAfter
        rw [List.append_assoc] at hAll
        exact hRest hAll hBlanks hEnd h

/- A step fails with a flaw in the next token. -/
theorem token_fails
    (h : token s = (.error e, s')) :
    s.cursor.Fails (TokenFlaw s.maxDepth s.point) e s'.cursor := by
  unfold token at h
  rw [Action.bind_eq_error_iff] at h
  rcases h with hLex | ⟨next, s₁, hLex, h⟩
  · rcases lex_eq_error_iff.mp hLex with ⟨c, hBlanks, rfl⟩
    exact .unreadable (Lexeme.blanks_error hBlanks)
  · rcases lex_eq_ok_iff.mp hLex with ⟨c, hAhead, rfl⟩
    rcases Lexeme.blanks_eq_ok_iff.mp hAhead with
      ⟨blanks, hReads, hBlanks, rfl, hEnd, _⟩
    rw [Action.bind_eq_error_iff] at h
    rcases h with hGet | ⟨s₂, s₃, hGet, h⟩
    · cases hGet
    · cases hGet
      rcases s with ⟨cursor, frames, stage, maxDepth⟩
      cases stage with
      | topValue =>
          exact lead_value_fails hReads (.top hBlanks) hEnd nofun h
      | topDone =>
          dsimp only [moved, point] at h
          split at h
          · cases h
          · rename_i hMore
            refine unexpected_fails hReads
              (.afterDocument rfl hBlanks ?_ hEnd) h rfl
            intro hNil
            rw [hNil] at hMore
            exact hMore rfl
      | firstKey =>
          dsimp only [moved, point] at h
          rcases closing_error h rfl with ⟨hClose, h⟩
          exact lead_key_fails hReads (.first hBlanks) hEnd
            (fun _ => hClose) h
      | key =>
          exact lead_key_fails hReads (.key hBlanks) hEnd nofun h
      | memberValue =>
          exact lead_value_fails hReads (.member hBlanks) hEnd nofun h
      | afterMember =>
          dsimp only [moved, point] at h
          rcases closing_error h rfl with ⟨hClose, h⟩
          split at h
          · rename_i hComma
            exact comma_fails hReads hComma
              (fun hAll hAfter hNoBlank hKey =>
                lead_key_fails hAll (.more hBlanks hAfter)
                  hNoBlank nofun hKey) h
          · rename_i hComma
            exact unexpected_fails hReads
              (.afterMember rfl hBlanks hComma hClose hEnd) h rfl
      | firstElement =>
          dsimp only [moved, point] at h
          rcases closing_error h rfl with ⟨hClose, h⟩
          exact lead_value_fails hReads (.first hBlanks) hEnd
            (fun _ => hClose) h
      | element =>
          exact lead_value_fails hReads (.element hBlanks) hEnd nofun h
      | afterElement =>
          dsimp only [moved, point] at h
          rcases closing_error h rfl with ⟨hClose, h⟩
          split at h
          · rename_i hComma
            exact comma_fails hReads hComma
              (fun hAll hAfter hNoBlank hValue =>
                lead_value_fails hAll (.more hBlanks hAfter)
                  hNoBlank nofun hValue) h
          · rename_i hComma
            exact unexpected_fails hReads
              (.afterElement rfl hBlanks hComma hClose hEnd) h rfl

------------------------------------------------------------
-- Whole Runs
------------------------------------------------------------

/- A flaw in the token behind tokens that run over a text. -/
inductive TextFlaw
    (limit : Nat) : Flaw where
  | mk
      {used before read rest : List UInt8}
      {message : String}
      {ts : List Token}
      {p : Point}
      (hRun : Run .first used ts p)
      (hFlaw : TokenFlaw limit p before read rest message) :
      TextFlaw limit (used ++ before) read rest message

/-
  A scanner that goes on: tokens run over the bytes read, or it
  is at the end and stays there.
-/
def Going
    (c : Cursor)
    (limit : Nat)
    (s : Scanner) : Prop :=
  ∃ used,
    c.Reads used s.cursor ∧ s.maxDepth = limit ∧
      ((∃ ts, Run .first used ts s.point) ∨
        token s = (.ok .eof, s))

theorem Going.ok
    {c : Cursor}
    {t : Token}
    (h : s.Going c limit)
    (hStep : token s = (.ok t, s')) :
    s'.Going c limit := by
  rcases h with ⟨used, hReads, rfl, ⟨ts, hRun⟩ | hEnd⟩
  · rcases token_sound hStep with
      ⟨more, p, hMore, hAdvance, hMoved, _⟩ | ⟨rfl, hEnds⟩
    · refine ⟨used ++ more, hReads.append hMore, ?_,
        .inl ⟨ts ++ [t], ?_⟩⟩
      · rw [hMoved]
        rfl
      · have hPoint : s'.point = p := by
          rw [hMoved]
          rfl
        rw [hPoint]
        exact hRun.append (.single hAdvance)
    · have hAgain := next_of_ends hEnds
      rcases Stream.next_start_ok_iff.mp hAgain with
        ⟨s'', hToken, hSame⟩
      cases hSame
      rcases hEnds with ⟨_, blanks, _, hMore, _, _, hMoved⟩
      refine ⟨used ++ blanks, hReads.append hMore, ?_, .inr hToken⟩
      rw [hMoved]
      rfl
  · rw [hEnd] at hStep
    cases hStep
    exact ⟨used, hReads, rfl, .inr hEnd⟩

theorem Going.error
    {c : Cursor}
    (h : s.Going c limit)
    (hStep : token s = (.error e, s')) :
    c.Fails (TextFlaw limit) e s'.cursor := by
  rcases h with ⟨used, hReads, rfl, ⟨ts, hRun⟩ | hEnd⟩
  · exact (token_fails hStep).behind hReads
      fun hFlaw => .mk hRun hFlaw
  · rw [hEnd] at hStep
    cases hStep

/- What holds of the states of a scanner, whatever is called. -/
theorem stream_stands
    {bytes : List UInt8}
    {fault : Option String}
    {stream' : Stream Scanner}
    (h : (stream bytes fault limit).Reaches stream') :
    stream'.Stands (Going (Cursor.start bytes fault) limit)
      fun e s =>
        (Cursor.start bytes fault).Fails (TextFlaw limit) e
          s.cursor := by
  apply h.stands Going.ok Going.error
  exact ⟨[], Cursor.Reads.nil_iff.mpr rfl, rfl, .inl ⟨[], .nil _⟩⟩

/- The bytes that a scanner has read, whatever is called. -/
theorem stream_reads
    {bytes : List UInt8}
    {fault : Option String}
    {stream' : Stream Scanner}
    (h : (stream bytes fault limit).Reaches stream') :
    ∃ used,
      (Cursor.start bytes fault).Reads used
        stream'.machine.cursor := by
  have hStands := stream_stands h
  cases hFailed : stream'.failed with
  | none =>
      rcases hStands.going hFailed with ⟨used, hReads, _⟩
      exact ⟨used, hReads⟩
  | some e => exact (hStands.failed hFailed).reads

/-
  The places that a scanner names, whatever is called: it stands
  behind the bytes that it has read, and malformed input is at
  the flaw of the text, which lies behind some of these bytes.
-/
structure ExactPlaces
    (bytes : List UInt8)
    (fault : Option String)
    (limit : Nat) : Prop where
  position :
    ∀ {s}, (stream bytes fault limit).Reaches s →
      ∃ read,
        bytes = read ++ s.machine.cursor.unread ∧
          s.machine.cursor.position = Position.after read
  malformed :
    ∀ {s s' e message place},
      (stream bytes fault limit).Reaches s →
      s.next = (.error e, s') →
      e.cause = .malformed message place →
      ∃ before read,
        bytes = before ++ read ++ s'.machine.cursor.unread ∧
          place = some (Position.after before) ∧
          TextFlaw limit before read s'.machine.cursor.unread message

end Scanner

/-
  The places that a scanner names are exact, over all bytes and
  at every limit, whether reading fails or not.
-/
theorem scanner_places_exact
    (bytes : List UInt8)
    (fault : Option String)
    (limit : Nat) :
    Scanner.ExactPlaces bytes fault limit where
  position := by
    intro s hReaches
    rcases Scanner.stream_reads hReaches with ⟨read, hReads⟩
    refine ⟨read, hReads.unread, ?_⟩
    rw [hReads.position]
    exact Position.foldl_advance read
  malformed := by
    intro s s' e message place hReaches hNext hCause
    have hAfter : (Scanner.stream bytes fault limit).Reaches s' := by
      have hReaches' := hReaches.next
      rwa [hNext] at hReaches'
    have hFails := (Scanner.stream_stands hAfter).error hNext
    cases hFails with
    | unreadable h =>
        rcases h with ⟨⟨_, rfl⟩, _⟩
        cases hCause
    | @flaw c₁ _ before read _ hBefore hRead hFlaw =>
        cases hCause
        refine ⟨before, read, (hBefore.append hRead).unread, ?_,
          hFlaw⟩
        rw [hBefore.position]
        exact congrArg some (Position.foldl_advance before)

end TreeWire
