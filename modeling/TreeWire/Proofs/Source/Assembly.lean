import TreeWire.Proofs.Source.Scanning

/-
  How lexings and the steps of a scanner are put together.

  A lexing is built from looks at the next byte, readings of
  bytes and errors of a fixed wording.  A step of a scanner is
  built from lexings and turns to another point of the grammar;
  a container is opened, if at all, as the last thing that a
  step does.

  Whatever is kept by these parts is kept by every lexing and by
  every step, so that no other proof has to go through the
  lexemes of JSON again.

  Key definitions include:
    * `PlainMessage`
    * `DecodeError.OfLexing`
    * `Lexeme.Built`
    * `Scanner.Built`
    * `Scanner.BuiltStep`

  Main statements:
    * `Lexeme.Built.reads`
    * `Lexeme.Built.error`
    * `Lexeme.built_number`
    * `Lexeme.built_string`
    * `Scanner.builtStep_token`
-/

namespace TreeWire

------------------------------------------------------------
-- Errors
------------------------------------------------------------

/- A message that is about no limit of nesting. -/
def PlainMessage
    (message : String) : Prop :=
  ∀ limit, message ≠ depthMessage limit

theorem depthMessage_head
    (limit : Nat) :
    (depthMessage limit).toList.head? = some 'n' := by
  have hHead :
      "nesting exceeds the maximum depth of ".toList.head? =
        some 'n' := by
    decide
  unfold depthMessage
  rw [String.toList_append, List.head?_append, hHead]
  rfl

/- Messages about a limit start with a letter of their own. -/
theorem plainMessage_of_head
    {message : String}
    (h : message.toList.head? ≠ some 'n') :
    PlainMessage message := by
  intro limit hEq
  rw [hEq] at h
  exact h (depthMessage_head limit)

/- Why a lexing fails: the limits of nesting are none of it. -/
inductive DecodeError.OfLexing : DecodeError → Prop where
  | malformed
      {message : String}
      (hMessage : PlainMessage message)
      (position : Position) :
      OfLexing (.here (.malformed message (some position)))
  | unreadable
      (message : String) :
      OfLexing (.here (.unreadable message))

------------------------------------------------------------
-- Lexings
------------------------------------------------------------

namespace Cursor

/- A cursor behind the bytes that satisfy a test. -/
def past
    (test : UInt8 → Bool)
    (c : Cursor) : Cursor :=
  { c with
    unread := c.unread.dropWhile test
    position :=
      (c.unread.takeWhile test).foldl Position.advance c.position }

/- Taking bytes ends with a look at the byte behind them. -/
theorem takeWhile_apply
    (test : UInt8 → Bool)
    (c : Cursor) :
    takeWhile test c =
      (do
        let _ ← peek
        pure (c.unread.takeWhile test) : Lexing (List UInt8))
        (c.past test) :=
  rfl

/- A look does not move a cursor. -/
theorem peek_state
    (c : Cursor) :
    (peek c).2 = c := by
  rcases c with ⟨_ | ⟨b, rest⟩, _ | message, position⟩ <;> rfl

theorem takeWhile_state
    (test : UInt8 → Bool)
    (c : Cursor) :
    (takeWhile test c).2 = c.past test := by
  have hState := peek_state (c.past test)
  rw [takeWhile_apply, Action.bind_apply]
  rcases hPeek : peek (c.past test) with ⟨e | next, c₁⟩
  · rw [hPeek] at hState
    exact hState
  · rw [hPeek] at hState
    exact hState

end Cursor

namespace Lexeme

/-
  A lexing put together from single looks and readings.  The
  input ahead serves as a number of rounds only: more rounds than
  there are bytes change nothing.
-/
inductive Built : {α : Type} → Lexing α → Prop where
  | pure
      {α : Type}
      (a : α) :
      Built (pure a)
  | peek :
      Built Cursor.peek
  | bump :
      Built Cursor.bump
  | place :
      Built Cursor.place
  | takeWhile
      (test : UInt8 → Bool) :
      Built (Cursor.takeWhile test)
  | malformed
      {α : Type}
      {message : String}
      (hMessage : PlainMessage message)
      (place : Position) :
      Built (Cursor.malformed (α := α) message place)
  | bind
      {α β : Type}
      {x : Lexing α}
      {f : α → Lexing β}
      (hFirst : Built x)
      (hRest : ∀ a, Built (f a)) :
      Built (x >>= f)
  | rounds
      {α : Type}
      {f : List UInt8 → Lexing α}
      (hRest : ∀ rounds, Built (f rounds))
      (hEnough :
        ∀ {c : Cursor} {rounds rounds' : List UInt8},
          c.unread.length ≤ rounds.length →
          c.unread.length ≤ rounds'.length →
          f rounds c = f rounds' c) :
      Built (Cursor.ahead >>= f)

/- A lexing only moves on, whether it fails or not. -/
theorem Built.reads
    {α : Type}
    {x : Lexing α}
    (h : Built x)
    (c : Cursor) :
    ∃ used, c.Reads used (x c).2 := by
  induction h generalizing c with
  | pure a => exact ⟨[], Cursor.Reads.nil_iff.mpr rfl⟩
  | peek =>
      exact ⟨[], Cursor.Reads.nil_iff.mpr (Cursor.peek_state c)⟩
  | bump =>
      rcases c with ⟨_ | ⟨b, rest⟩, fault, position⟩
      · refine ⟨[], Cursor.Reads.nil_iff.mpr ?_⟩
        cases fault <;> rfl
      · exact ⟨[b], rfl, rfl, rfl⟩
  | place => exact ⟨[], Cursor.Reads.nil_iff.mpr rfl⟩
  | takeWhile test =>
      refine ⟨c.unread.takeWhile test, ?_⟩
      rw [Cursor.takeWhile_state]
      exact ⟨List.takeWhile_append_dropWhile.symm, rfl, rfl⟩
  | malformed hMessage place =>
      exact ⟨[], Cursor.Reads.nil_iff.mpr rfl⟩
  | @bind _ _ x f hFirst hRest ihFirst ihRest =>
      rcases ihFirst c with ⟨used, hUsed⟩
      rw [Action.bind_apply]
      rcases hRun : x c with ⟨e | a, c₁⟩
      · rw [hRun] at hUsed
        exact ⟨used, hUsed⟩
      · rw [hRun] at hUsed
        rcases ihRest a c₁ with ⟨more, hMore⟩
        exact ⟨used ++ more, hUsed.append hMore⟩
  | rounds hRest hEnough ih => exact ih c.unread c

/- No lexing puts bytes back. -/
theorem Built.unread_length_le
    {α : Type}
    {x : Lexing α}
    (h : Built x)
    {c c' : Cursor}
    {r : Except DecodeError α}
    (hRun : x c = (r, c')) :
    c'.unread.length ≤ c.unread.length := by
  rcases h.reads c with ⟨used, hReads⟩
  rw [hRun] at hReads
  rw [hReads.unread, List.length_append]
  exact Nat.le_add_left _ _

/- Every error of a lexing has one of these reasons. -/
theorem Built.error
    {α : Type}
    {x : Lexing α}
    (h : Built x)
    {c c' : Cursor}
    {e : DecodeError}
    (hError : x c = (.error e, c')) :
    e.OfLexing := by
  have hPeek :
      ∀ {c c' e}, Cursor.peek c = (.error e, c') → e.OfLexing := by
    rintro ⟨_ | ⟨b, rest⟩, _ | message, position⟩ c' e hError
    · cases hError
    · cases hError
      exact .unreadable message
    · cases hError
    · cases hError
  induction h generalizing c c' with
  | pure a => cases hError
  | peek => exact hPeek hError
  | bump =>
      rcases c with ⟨_ | ⟨b, rest⟩, _ | message, position⟩
      · cases hError
      · cases hError
        exact .unreadable message
      · cases hError
      · cases hError
  | place => cases hError
  | takeWhile test =>
      rw [Cursor.takeWhile_apply] at hError
      rcases Action.bind_eq_error_iff.mp hError with
        hError | ⟨_, _, _, hPure⟩
      · exact hPeek hError
      · cases hPure
  | malformed hMessage place =>
      cases hError
      exact .malformed hMessage place
  | bind hFirst hRest ihFirst ihRest =>
      rcases Action.bind_eq_error_iff.mp hError with
        hError | ⟨a, c₁, _, hError⟩
      · exact ihFirst hError
      · exact ihRest a hError
  | rounds hRest hEnough ih => exact ih c.unread hError

------------------------------------------------------------
-- Words and Numbers
------------------------------------------------------------

theorem built_blanks :
    Built blanks :=
  .bind (.takeWhile _) fun _ => .peek

theorem built_expectBytes
    {failure : Lexing Unit}
    (hFailure : Built failure)
    (bytes : List UInt8) :
    Built (expectBytes failure bytes) := by
  induction bytes with
  | nil => exact .pure ()
  | cons b bytes ih =>
      refine .bind .bump fun next => ?_
      split
      · exact ih
      · exact hFailure

theorem built_word
    (text : String)
    (kind : LiteralKind) :
    Built (word text kind) := by
  have hMessage :
      PlainMessage ("invalid literal, expected `" ++ text ++ "`") :=
    plainMessage_of_head (by simp [String.toList_append])
  exact .bind .place fun place =>
    .bind (built_expectBytes (.malformed hMessage place) _)
      fun _ => .pure _

theorem built_takeIf
    (test : UInt8 → Bool) :
    Built (takeIf test) := by
  refine .bind .peek fun next => ?_
  cases next with
  | none => exact .pure []
  | some b =>
      dsimp only
      split
      · exact .bind .bump fun _ => .pure [b]
      · exact .pure []

theorem built_digits
    {message : String}
    (hMessage : PlainMessage message)
    (place : Position) :
    Built (digits message place) := by
  refine .bind .peek fun next => ?_
  cases next with
  | none => exact .malformed hMessage place
  | some b =>
      dsimp only
      split
      · exact .takeWhile _
      · exact .malformed hMessage place

theorem built_wholePart
    (place : Position) :
    Built (wholePart place) := by
  refine .bind .peek fun next => ?_
  split
  · exact built_takeIf _
  · exact built_digits (plainMessage_of_head (by decide)) place

theorem built_fraction
    (place : Position) :
    Built (fraction place) := by
  refine .bind (built_takeIf _) fun point => ?_
  cases point with
  | nil => exact .pure []
  | cons b point =>
      exact .bind
        (built_digits (plainMessage_of_head (by decide)) place)
        fun _ => .pure _

theorem built_exponent
    (place : Position) :
    Built (exponent place) := by
  refine .bind (built_takeIf _) fun mark => ?_
  cases mark with
  | nil => exact .pure []
  | cons b mark =>
      exact .bind (built_takeIf _) fun _ =>
        .bind (built_digits (plainMessage_of_head (by decide)) place)
          fun _ => .pure _

theorem built_number :
    Built number :=
  .bind .place fun place =>
    .bind (built_takeIf _) fun _ =>
      .bind (built_wholePart place) fun _ =>
        .bind (built_fraction place) fun _ =>
          .bind (built_exponent place) fun _ => .pure _

------------------------------------------------------------
-- Strings
------------------------------------------------------------

theorem built_hexNumber
    (place : Position)
    (value count : Nat) :
    Built (hexNumber place value count) := by
  induction count generalizing value with
  | zero => exact .pure value
  | succ count ih =>
      refine .bind .bump fun next => ?_
      cases next.bind hexValue? with
      | none =>
          exact .malformed (plainMessage_of_head (by decide)) place
      | some digit => exact ih _

theorem built_unpaired
    {α : Type}
    (place : Position) :
    Built (unpaired (α := α) place) :=
  .malformed (plainMessage_of_head (by decide)) place

theorem built_lowSurrogate
    (place : Position) :
    Built (lowSurrogate place) := by
  refine .bind .bump fun next => ?_
  split
  · exact built_unpaired place
  · refine .bind .bump fun next => ?_
    split
    · exact built_unpaired place
    · refine .bind (built_hexNumber place 0 4) fun low => ?_
      split
      · exact .pure low
      · exact built_unpaired place

theorem built_unicodeEscape
    (place : Position) :
    Built (unicodeEscape place) := by
  refine .bind (built_hexNumber place 0 4) fun first => ?_
  split
  · exact .bind (built_lowSurrogate place) fun _ => .pure _
  · split
    · exact built_unpaired place
    · exact .pure _

theorem built_escape
    (place : Position) :
    Built (escape place) := by
  refine .bind .bump fun next => ?_
  split
  case h_9 => exact built_unicodeEscape place
  case h_10 =>
    exact .malformed (plainMessage_of_head (by decide)) place
  all_goals exact .pure _

theorem built_stringBytes
    (start : Position)
    (done rounds : List UInt8) :
    Built (stringBytes start done rounds) := by
  have hUnterminated :
      ∀ {α : Type},
        Built (Cursor.malformed (α := α) "unterminated string"
          start) :=
    .malformed (plainMessage_of_head (by decide)) start
  induction rounds generalizing done with
  | nil => exact .bind .peek fun _ => hUnterminated
  | cons _ rounds ih =>
      refine .bind .place fun place => .bind .bump fun next => ?_
      cases next with
      | none => exact hUnterminated
      | some b =>
          dsimp only
          split
          · exact .pure _
          · split
            · exact .bind (built_escape place) fun _ => ih _
            · split
              · exact .malformed
                  (plainMessage_of_head (by decide)) place
              · exact ih _

/- At the end of the input no round is of any use. -/
theorem stringBytes_of_nil
    {start : Position}
    {done : List UInt8}
    {c : Cursor}
    (rounds : List UInt8)
    (h : c.unread = []) :
    stringBytes start done rounds c =
      stringBytes start done [] c := by
  rcases c with ⟨unread, _ | message, position⟩
  · cases h
    cases rounds <;> rfl
  · cases h
    cases rounds <;> rfl

/-
  Every round of a string takes a byte, so that rounds beyond the
  bytes ahead are never used.  The induction is on the rounds.
-/
theorem stringBytes_enough
    {start : Position}
    {done rounds rounds' : List UInt8}
    {c : Cursor}
    (h : c.unread.length ≤ rounds.length)
    (h' : c.unread.length ≤ rounds'.length) :
    stringBytes start done rounds c =
      stringBytes start done rounds' c := by
  induction rounds generalizing done rounds' c with
  | nil =>
      have hNil : c.unread = [] :=
        List.length_eq_zero_iff.mp (Nat.le_zero.mp h)
      rw [stringBytes_of_nil rounds' hNil]
  | cons r rounds ih =>
      rcases c with ⟨_ | ⟨b, rest⟩, fault, position⟩
      · rw [stringBytes_of_nil (r :: rounds) rfl,
          stringBytes_of_nil rounds' rfl]
      · cases rounds' with
        | nil => exact absurd h' (Nat.not_succ_le_zero _)
        | cons r' rounds' =>
            have hRest : rest.length ≤ rounds.length :=
              Nat.le_of_succ_le_succ h
            have hRest' : rest.length ≤ rounds'.length :=
              Nat.le_of_succ_le_succ h'
            let c₁ : Cursor := ⟨rest, fault, position.advance b⟩
            have hPlace :
                Cursor.place ⟨b :: rest, fault, position⟩ =
                  (.ok position, ⟨b :: rest, fault, position⟩) :=
              rfl
            have hBump :
                Cursor.bump ⟨b :: rest, fault, position⟩ =
                  (.ok (some b), c₁) :=
              rfl
            unfold stringBytes
            rw [Action.bind_ok hPlace, Action.bind_ok hPlace,
              Action.bind_ok hBump, Action.bind_ok hBump]
            dsimp only
            split
            · rfl
            · split
              · rw [Action.bind_apply, Action.bind_apply]
                rcases hEscape : escape position c₁ with
                  ⟨e | char, c₂⟩
                · rfl
                · have hLength :=
                    (built_escape position).unread_length_le hEscape
                  exact ih (Nat.le_trans hLength hRest)
                    (Nat.le_trans hLength hRest')
              · split
                · rfl
                · exact ih hRest hRest'

theorem built_string :
    Built string := by
  refine .bind .place fun start => .bind .bump fun _ =>
    .rounds (fun rounds => .bind (built_stringBytes start [] rounds)
      fun bytes => ?_) ?_
  · cases utf8Text? bytes with
    | none =>
        exact .malformed (plainMessage_of_head (by decide)) start
    | some text => exact .pure text
  · intro c rounds rounds' h h'
    rw [Action.bind_apply, Action.bind_apply,
      stringBytes_enough h h']

end Lexeme

------------------------------------------------------------
-- Steps of a Scanner
------------------------------------------------------------

namespace Scanner

/-
  A scanning put together from lexings and turns.  It opens no
  container.
-/
inductive Built : {α : Type} → Scanning α → Prop where
  | pure
      {α : Type}
      (a : α) :
      Built (pure a)
  | lex
      {α : Type}
      {x : Lexing α}
      (h : Lexeme.Built x) :
      Built (lex x)
  | turn
      {x : Scanning Unit}
      (f : Point → Point)
      (hFrames : ∀ p, (f p).frames.length ≤ p.frames.length)
      (hTurn : ∀ s, x s = (.ok (), s.moved s.cursor (f s.point))) :
      Built x
  | bind
      {α β : Type}
      {x : Scanning α}
      {f : α → Scanning β}
      (hFirst : Built x)
      (hRest : ∀ a, Built (f a)) :
      Built (x >>= f)

/- A scanning opens a container at a byte, and ends. -/
def Opens
    (next : Option UInt8)
    (x : Scanning Token) : Prop :=
  ∃ b frame stage mark,
    next = some b ∧ mark.opens = true ∧
      x = (do
        openContainer frame stage
        pure mark)

/-
  A step put together from scannings that open no container.  A
  look at the next byte decides whether it opens one at last.
-/
inductive BuiltStep : Scanning Token → Prop where
  | closed
      {x : Scanning Token}
      (h : Built x) :
      BuiltStep x
  | look
      {f : Option UInt8 → Scanning Token}
      (hRest : ∀ next, Built (f next) ∨ Opens next (f next)) :
      BuiltStep (Scanner.lex Cursor.peek >>= f)
  | bind
      {α : Type}
      {x : Scanning α}
      {f : α → Scanning Token}
      (hFirst : Built x)
      (hRest : ∀ a, BuiltStep (f a)) :
      BuiltStep (x >>= f)
  | byStage
      {f : Scanner → Scanning Token}
      (hRest : ∀ s, BuiltStep (f s))
      (hStage : ∀ {s s'}, s.stage = s'.stage → f s = f s') :
      BuiltStep (get >>= f)

/- Within the limit a container opens at the next byte. -/
theorem openContainer_within
    {s : Scanner}
    (frame : Frame)
    (stage : Stage)
    (hDepth : s.frames.length < s.maxDepth) :
    openContainer frame stage s =
      (do
        let _ ← lex Cursor.bump
        modify fun s =>
          { s with frames := frame :: s.frames, stage := stage } :
        Scanning Unit) s := by
  have hGet : (get : Scanning Scanner) s = (.ok s, s) := rfl
  unfold openContainer
  rw [Action.bind_ok hGet, if_neg (Nat.not_le_of_lt hDepth)]

theorem built_setStage
    (stage : Stage) :
    Built (setStage stage) :=
  .turn (fun p => ⟨stage, p.frames⟩) (fun _ => Nat.le_refl _)
    fun _ => rfl

theorem built_complete :
    Built complete :=
  .turn (fun p => .after p.frames) (fun _ => Nat.le_refl _)
    fun _ => rfl

theorem built_unexpected
    {α : Type}
    (next : Option UInt8)
    (expected : String) :
    Built (unexpected (α := α) next expected) := by
  have hMessage :
      ∀ found : String,
        PlainMessage
          ("unexpected " ++ found ++ ", expected " ++ expected) :=
    fun found => plainMessage_of_head (by simp [String.toList_append])
  exact .lex (.bind .place fun place => .malformed (hMessage _) place)

theorem built_literal
    {lexeme : Lexing Literal}
    (h : Lexeme.Built lexeme) :
    Built (literal lexeme) :=
  .bind (.lex h) fun _ => .bind built_complete fun _ => .pure _

theorem built_closeContainer
    (mark : Token) :
    Built (closeContainer mark) := by
  refine .bind (.lex .bump) fun _ =>
    .bind (.turn (fun p => ⟨p.stage, p.frames.tail⟩) ?_ fun _ => rfl)
      fun _ => .bind built_complete fun _ => .pure mark
  intro p
  exact List.length_tail ▸ Nat.sub_le _ _

theorem built_key
    (next : Option UInt8) :
    Built (key next) := by
  unfold key
  split
  · refine .bind (.lex Lexeme.built_string) fun name =>
      .bind (.lex Lexeme.built_blanks) fun after => ?_
    split
    · exact .bind (.lex .bump) fun _ =>
        .bind (built_setStage _) fun _ => .pure _
    · exact built_unexpected _ _
  · exact built_unexpected _ _

theorem builtStep_value :
    BuiltStep value := by
  refine .look fun next => ?_
  split
  · exact .inr ⟨_, _, _, .objectOpen, rfl, rfl, rfl⟩
  · exact .inr ⟨_, _, _, .arrayOpen, rfl, rfl, rfl⟩
  · exact .inl (built_literal
      (.bind Lexeme.built_string fun _ => .pure _))
  · exact .inl (built_literal (Lexeme.built_word _ _))
  · exact .inl (built_literal (Lexeme.built_word _ _))
  · exact .inl (built_literal (Lexeme.built_word _ _))
  · split
    · exact .inl (built_literal Lexeme.built_number)
    · exact .inl (built_unexpected _ _)
  · exact .inl (built_unexpected _ _)

/- A comma, and what is allowed behind it. -/
theorem builtStep_comma
    {stage : Stage}
    {rest : Option UInt8 → Scanning Token}
    (hRest : ∀ next, BuiltStep (rest next)) :
    BuiltStep (do
      let _ ← lex Cursor.bump
      setStage stage
      let next ← lex Lexeme.blanks
      rest next) :=
  .bind (.lex .bump) fun _ =>
    .bind (built_setStage stage) fun _ =>
      .bind (.lex Lexeme.built_blanks) hRest

/- Every step of a scanner is put together in this way. -/
theorem builtStep_token :
    BuiltStep token := by
  refine .bind (.lex Lexeme.built_blanks) fun next =>
    .byStage (fun s => ?_) ?_
  · cases s.stage with
    | topValue => exact builtStep_value
    | topDone =>
        dsimp only
        split
        · exact .closed (.pure Token.eof)
        · exact .closed (built_unexpected _ _)
    | firstKey =>
        dsimp only
        split
        · exact .closed (built_closeContainer _)
        · exact .closed (built_key _)
    | key => exact .closed (built_key _)
    | memberValue => exact builtStep_value
    | afterMember =>
        dsimp only
        split
        · exact .closed (built_closeContainer _)
        · split
          · exact builtStep_comma fun _ => .closed (built_key _)
          · exact .closed (built_unexpected _ _)
    | firstElement =>
        dsimp only
        split
        · exact .closed (built_closeContainer _)
        · exact builtStep_value
    | element => exact builtStep_value
    | afterElement =>
        dsimp only
        split
        · exact .closed (built_closeContainer _)
        · split
          · exact builtStep_comma fun _ => builtStep_value
          · exact .closed (built_unexpected _ _)
  · intro s s' hStage
    rw [hStage]

end Scanner

end TreeWire
