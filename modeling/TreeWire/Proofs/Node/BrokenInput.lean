import TreeWire.Proofs.Node.DecodedTexts
import TreeWire.Proofs.Node.EarlyStops
import TreeWire.Proofs.Source.Assembly
import TreeWire.Proofs.Source.OpenContainers

/-
  Reading that breaks off.

  An input that is cut short has the first bytes of another one,
  and a failure in place of the bytes that are missing.  A lexing
  gives the same result on both, or comes to the failure; so does
  every step of a scanner, and so does decoding.

  The failure is never taken for the end of the input, so nothing
  decodes from an input that is cut short.

  Key definitions include:
    * `Cursor.CutShort`
    * `Scanner.CutShort`

  Main statements:
    * `Lexeme.Built.cutShort`
    * `Scanner.step_cutShort`
    * `decode_broken_input`
-/

namespace TreeWire

------------------------------------------------------------
-- Lexings
------------------------------------------------------------

/- The second cursor comes to a failure, maybe before the end. -/
structure Cursor.CutShort
    (message : String)
    (c c' : Cursor) : Prop where
  unread : c'.unread <+: c.unread
  position : c'.position = c.position
  fault : c'.fault = some message

/- Reading breaks off with a message. -/
def Cause.BreaksOff
    (message : String)
    (cause : Cause) : Prop :=
  cause = .unreadable message

namespace Cursor.CutShort

variable {message : String}
variable {c c' : Cursor}

/- The failure comes next, or both cursors stand at one byte. -/
theorem failure_or_byte
    (h : CutShort message c c') :
    (∃ p, c' = ⟨[], some message, p⟩) ∨
      ∃ b more rest fault p,
        c = ⟨b :: (more ++ rest), fault, p⟩ ∧
          c' = ⟨b :: more, some message, p⟩ := by
  rcases c with ⟨unread, fault, position⟩
  rcases c' with ⟨unread', fault', position'⟩
  rcases h with ⟨⟨rest, hUnread⟩, hPosition, hFault⟩
  cases hPosition
  cases hFault
  cases unread' with
  | nil => exact .inl ⟨position, rfl⟩
  | cons b more =>
      cases hUnread
      exact .inr ⟨b, more, rest, fault, position, rfl, rfl⟩

theorem peek
    (h : CutShort message c c') :
    Early (CutShort message) (Cause.BreaksOff message)
      (Cursor.peek c) (Cursor.peek c') := by
  rcases h.failure_or_byte with
    ⟨p, rfl⟩ | ⟨b, more, rest, fault, p, rfl, rfl⟩
  · exact .stop rfl
  · exact .ok h

theorem bump
    (h : CutShort message c c') :
    Early (CutShort message) (Cause.BreaksOff message)
      (Cursor.bump c) (Cursor.bump c') := by
  rcases h.failure_or_byte with
    ⟨p, rfl⟩ | ⟨b, more, rest, fault, p, rfl, rfl⟩
  · exact .stop rfl
  · exact .ok ⟨⟨rest, rfl⟩, rfl, rfl⟩

/-
  Bytes that satisfy a test.  Where all bytes that are there do,
  the look at the byte behind them comes to the failure.
-/
theorem takeWhile
    (h : CutShort message c c')
    (test : UInt8 → Bool) :
    Early (CutShort message) (Cause.BreaksOff message)
      (Cursor.takeWhile test c) (Cursor.takeWhile test c') := by
  rw [takeWhile_apply, takeWhile_apply]
  rcases c with ⟨unread, fault, position⟩
  rcases c' with ⟨unread', fault', position'⟩
  rcases h with ⟨⟨rest, hUnread⟩, hPosition, hFault⟩
  have hWhole : unread = unread' ++ rest := hUnread.symm
  subst hWhole
  cases hPosition
  cases hFault
  cases hDrop : unread'.dropWhile test with
  | nil =>
      have hPeek :
          Cursor.peek (past test ⟨unread', some message, position⟩) =
            (.error (.here (.unreadable message)),
              past test ⟨unread', some message, position⟩) := by
        simp only [past, hDrop, Cursor.peek]
      rw [Action.bind_error hPeek]
      exact .stop rfl
  | cons b more =>
      have hTake :
          (unread' ++ rest).takeWhile test =
            unread'.takeWhile test := by
        have hSplit : unread'.takeWhile test ++ _ = unread' :=
          List.takeWhile_append_dropWhile
        have hLength := congrArg List.length hSplit
        rw [hDrop, List.length_append, List.length_cons] at hLength
        rw [List.takeWhile_append, if_neg (by omega)]
      have hPast :
          CutShort message
            (past test ⟨unread' ++ rest, fault, position⟩)
            (past test ⟨unread', some message, position⟩) := by
        refine ⟨⟨rest, ?_⟩, ?_, rfl⟩
        · simp only [past, List.dropWhile_append, hDrop]
          rfl
        · simp only [past, hTake]
      dsimp only
      rw [hTake]
      exact hPast.peek.bind fun _ _ _ hStates => .ok hStates

end Cursor.CutShort

/- A lexing gives the same result, or comes to the failure. -/
theorem Lexeme.Built.cutShort
    {α : Type}
    {x : Lexing α}
    {message : String}
    {c c' : Cursor}
    (h : Built x)
    (hCut : Cursor.CutShort message c c') :
    Early (Cursor.CutShort message) (Cause.BreaksOff message)
      (x c) (x c') := by
  induction h generalizing c c' with
  | pure a => exact .ok hCut
  | peek => exact hCut.peek
  | bump => exact hCut.bump
  | place =>
      change Early _ _ (.ok c.position, c) (.ok c'.position, c')
      rw [hCut.position]
      exact .ok hCut
  | takeWhile test => exact hCut.takeWhile test
  | malformed hMessage place => exact .error
  | bind hFirst hRest ihFirst ihRest =>
      exact (ihFirst hCut).bind fun a _ _ hStates => ihRest a hStates
  | @rounds _ f hRest hEnough ih =>
      change Early _ _ (f c.unread c) (f c'.unread c')
      -- The whole input has rounds enough for the part of it too.
      rw [hEnough (Nat.le_refl _) hCut.unread.length_le]
      exact ih c.unread hCut

------------------------------------------------------------
-- Steps of a Scanner
------------------------------------------------------------

namespace Scanner

variable {message : String}
variable {s s' : Scanner}

/- Two scanners at one point, the second of which is cut short. -/
structure CutShort
    (message : String)
    (s s' : Scanner) : Prop where
  cursor : Cursor.CutShort message s.cursor s'.cursor
  point : s'.point = s.point
  limit : s'.maxDepth = s.maxDepth

namespace CutShort

theorem stage
    (h : CutShort message s s') :
    s'.stage = s.stage :=
  congrArg Point.stage h.point

theorem frames
    (h : CutShort message s s') :
    s'.frames = s.frames :=
  congrArg Point.frames h.point

/- Both scanners move on to one point. -/
theorem moved
    {c c' : Cursor}
    (h : CutShort message s s')
    (hCursor : Cursor.CutShort message c c')
    (p : Point) :
    CutShort message (s.moved c p) (s'.moved c' p) :=
  ⟨hCursor, rfl, h.limit⟩

theorem lex
    {α : Type}
    {x : Lexing α}
    (h : CutShort message s s')
    (hBuilt : Lexeme.Built x) :
    Early (CutShort message) (Cause.BreaksOff message)
      (Scanner.lex x s) (Scanner.lex x s') := by
  have hEarly := hBuilt.cutShort h.cursor
  unfold Scanner.lex
  generalize x s.cursor = out at hEarly
  generalize x s'.cursor = out' at hEarly
  cases hEarly with
  | ok hCursor => exact .ok ⟨hCursor, h.point, h.limit⟩
  | error => exact .error
  | stop hStops => exact .stop hStops

theorem openContainer
    (h : CutShort message s s')
    (frame : Frame)
    (stage : Stage) :
    Early (CutShort message) (Cause.BreaksOff message)
      (Scanner.openContainer frame stage s)
      (Scanner.openContainer frame stage s') := by
  by_cases hDeep : s.maxDepth ≤ s.frames.length
  · have hDeep' : s'.maxDepth ≤ s'.frames.length := by
      rw [h.limit, h.frames]
      exact hDeep
    rw [openContainer_tooDeep frame stage hDeep,
      openContainer_tooDeep frame stage hDeep', h.limit,
      h.cursor.position]
    exact .error
  · have hWithin := Nat.lt_of_not_le hDeep
    have hWithin' : s'.frames.length < s'.maxDepth := by
      rw [h.limit, h.frames]
      exact hWithin
    rw [openContainer_within frame stage hWithin,
      openContainer_within frame stage hWithin']
    refine (h.lex .bump).bind fun _ s₁ s₁' hStates => .ok ?_
    refine ⟨hStates.cursor, ?_, hStates.limit⟩
    change Point.mk stage (frame :: s₁'.frames) = _
    rw [hStates.frames]
    rfl

end CutShort

theorem Built.cutShort
    {α : Type}
    {x : Scanning α}
    (h : Built x)
    (hCut : CutShort message s s') :
    Early (CutShort message) (Cause.BreaksOff message)
      (x s) (x s') := by
  induction h generalizing s s' with
  | pure a => exact .ok hCut
  | lex hLex => exact hCut.lex hLex
  | turn f hFrames hTurn =>
      rw [hTurn, hTurn, hCut.point]
      exact .ok (hCut.moved hCut.cursor _)
  | bind hFirst hRest ihFirst ihRest =>
      exact (ihFirst hCut).bind fun a _ _ hStates => ihRest a hStates

theorem BuiltStep.cutShort
    {x : Scanning Token}
    (h : BuiltStep x)
    (hCut : CutShort message s s') :
    Early (CutShort message) (Cause.BreaksOff message)
      (x s) (x s') := by
  induction h generalizing s s' with
  | closed hBuilt => exact hBuilt.cutShort hCut
  | look hRest =>
      refine (hCut.lex .peek).bind fun next s₁ s₁' hStates => ?_
      rcases hRest next with
        hBuilt | ⟨_, frame, stage, mark, _, _, hOpens⟩
      · exact hBuilt.cutShort hStates
      · rw [hOpens]
        exact (hStates.openContainer frame stage).bind
          fun _ _ _ hLast => .ok hLast
  | bind hFirst _ ih =>
      exact (hFirst.cutShort hCut).bind fun a _ _ hStates =>
        ih a hStates
  | @byStage f _ hStage ih =>
      change Early _ _ (f s s) (f s' s')
      rw [hStage hCut.stage]
      exact ih s hCut

/- A step gives the same token, or comes to the failure. -/
theorem step_cutShort
    (h : CutShort message s s') :
    Early (CutShort message) (Cause.BreaksOff message)
      (TokenMachine.step s) (TokenMachine.step s') :=
  builtStep_token.cutShort h

end Scanner

------------------------------------------------------------
-- Decoding
------------------------------------------------------------

/- A scanner never comes to the end of an input that breaks off. -/
theorem Scanner.stream_fails
    (bytes : List UInt8)
    (message : String)
    (limit : Nat) :
    (stream bytes (some message) limit).Fails := by
  rcases (stream bytes (some message) limit).reaches_end_or_fails with
    ⟨ts, s, hEof, hDelivers⟩ | hFails
  · cases fault_of_eof hEof hDelivers
  · exact hFails

/-
  Nothing decodes from an input that breaks off, be it behind its
  last byte.  The error is the one that the whole input gives, or
  says that the input cannot be read.  Tokens that are delivered
  before that are those of the whole input.
-/
theorem decode_broken_input
    (bytes : List UInt8)
    (n : Nat)
    (shape : Shape)
    (limit : Nat)
    (message : String) :
    (∃ e,
      (decodeDocument shape
          (Scanner.stream (bytes.take n) (some message) limit)).1 =
        .error e ∧
      (e.cause = .unreadable message ∨
        (decodeDocument shape (Scanner.stream bytes none limit)).1 =
          .error e)) ∧
    ∀ ts s,
      (Scanner.stream (bytes.take n) (some message) limit).Delivers
          ts s →
        ∃ s', (Scanner.stream bytes none limit).Delivers ts s' := by
  have hCut :
      Scanner.CutShort message (Scanner.start bytes none limit)
        (Scanner.start (bytes.take n) (some message) limit) :=
    ⟨⟨List.take_prefix n bytes, rfl, rfl⟩, rfl, rfl⟩
  constructor
  · rcases decodeDocument_of_fails shape
      (Scanner.stream_fails (bytes.take n) message limit) with
      ⟨e, s, hError⟩
    refine ⟨e, congrArg Prod.fst hError, ?_⟩
    rcases decodeDocument_early Scanner.step_cutShort shape hCut with
      hSame | ⟨e', hStop, hBreaks⟩
    · exact .inr (hSame.trans (congrArg Prod.fst hError))
    · have hEq : e' = e :=
        Except.error.inj
          (hStop.symm.trans (congrArg Prod.fst hError))
      rw [← hEq]
      exact .inl hBreaks
  · intro ts s hDelivers
    rcases (Stream.Beside.start hCut).delivers Scanner.step_cutShort
      hDelivers with ⟨s', hWhole, _⟩
    exact ⟨s', hWhole⟩

end TreeWire
