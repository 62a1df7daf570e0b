import TreeWire.Proofs.Node.EarlyStops
import TreeWire.Proofs.Node.Termination

/-
  The limit of nesting does nothing but cut.

  A run with a greater limit goes along with a run with a smaller
  one, until the smaller limit stops that run at a container that
  the greater one lets open.  So both give the same result, or
  the smaller limit is exceeded by the tokens of the input, up to
  where its run has stopped.

  Key definitions include:
    * `LimitOnlyCuts`

  Main statements:
    * `LimitedMachine.early`
    * `LimitedMachine.opens_beyond`
    * `raising_limit_keeps_results`
-/

namespace TreeWire

/-
  What the limit does to decoding, over the sources of one input
  at all limits.

  Two limits give the same result, unless the smaller one fails
  because of its limit.  That failure is the last thing that its
  source has done: it has delivered tokens to which the input adds
  the opening mark of a container beyond the limit, as every
  greater limit shows.  What decodes stays as it is.
-/
structure LimitOnlyCuts
    {μ : Type}
    [TokenMachine μ]
    (source : Nat → Stream μ)
    (shape : Shape)
    (limit limit' : Nat) : Prop where
  same :
    (∀ {e},
      (decodeDocument shape (source limit)).1 = .error e →
        ¬ e.cause.BeyondLimit limit) →
      (decodeDocument shape (source limit')).1 =
        (decodeDocument shape (source limit)).1
  reached :
    ∀ {e s},
      decodeDocument shape (source limit) = (.error e, s) →
      e.cause.BeyondLimit limit →
        ∃ ts t s₁ e₁,
          (source limit).Delivers ts s₁ ∧
            s₁.next = (.error e₁, s) ∧ e₁.cause = e.cause ∧
            t.opens = true ∧
            (openContainers (ts ++ [t])).length = limit + 1 ∧
            ∀ l, limit < l →
              ∃ s₂, (source l).Delivers (ts ++ [t]) s₂
  kept :
    ∀ {v},
      (decodeDocument shape (source limit)).1 = .ok v →
        (decodeDocument shape (source limit')).1 = .ok v

namespace LimitedMachine

variable {μ : Type} [TokenMachine μ] [LimitedMachine μ]
variable {m m' : μ}
variable {l l' : Nat}

------------------------------------------------------------
-- Runs Side by Side
------------------------------------------------------------

/- The machine with a greater limit, beside one within its own. -/
structure RaisedTo
    (l l' : Nat)
    (m' m : μ) : Prop where
  raised : m' = withLimit l' m
  limit_eq : limit m = l
  within : depth m ≤ l

/- A step with a smaller limit goes along, or stops at it. -/
theorem early
    (hLimit : l < l')
    (h : RaisedTo l l' m' m) :
    Early (RaisedTo l l') (Cause.BeyondLimit l)
      (TokenMachine.step m') (TokenMachine.step m) := by
  rcases h with ⟨rfl, rfl, hWithin⟩
  have hRaised := raised hWithin hLimit
  generalize hStep : TokenMachine.step m = out at hRaised
  generalize TokenMachine.step (withLimit l' m) = out' at hRaised
  cases hRaised with
  | ok =>
      have hLast := limit_of_step hStep
      exact .ok ⟨rfl, hLast, hLast ▸ depth_le_of_step hWithin hStep⟩
  | error => exact .error
  | tooDeep hCause => exact .stop hCause

theorem raisedTo_start
    (hStart : depth m = 0)
    (l l' : Nat) :
    RaisedTo l l' (withLimit l' m) (withLimit l m) where
  raised := (withLimit_withLimit l' l m).symm
  limit_eq := limit_withLimit l m
  within := by
    rw [depth_withLimit, hStart]
    exact Nat.zero_le l

/- What a smaller limit delivers is delivered by a greater one. -/
theorem delivers_raised
    {ts : List Token}
    (hStart : depth m = 0)
    (hLimit : l < l')
    (h :
      (Stream.start (withLimit l m)).Delivers ts (Stream.start m')) :
    (Stream.start (withLimit l' m)).Delivers ts
      (Stream.start (withLimit l' m')) := by
  rcases (Stream.Beside.start (raisedTo_start hStart l l')).delivers
    (early hLimit) h with ⟨s, hDelivers, hBeside⟩
  rcases s with ⟨machine, held, failed⟩
  rcases hBeside with ⟨⟨hRaised, _, _⟩, hHeld, hRunning, _⟩
  cases hRaised
  cases hHeld
  cases hRunning
  exact hDelivers

------------------------------------------------------------
-- Beyond the Limit
------------------------------------------------------------

/-
  A machine that fails because of its limit stands at a container
  that every greater limit lets open.
-/
theorem opens_beyond
    {e : DecodeError}
    (hWithin : depth m ≤ limit m)
    (hStep : TokenMachine.step m = (.error e, m'))
    (hCause : e.cause.BeyondLimit (limit m)) :
    limit m ≤ depth m ∧
      ∃ t,
        t.opens = true ∧
          ∀ l, limit m < l →
            ∃ m₁, TokenMachine.step (withLimit l m) = (.ok t, m₁) := by
  have hRaised := raised hWithin (Nat.lt_succ_self (limit m))
  rw [hStep] at hRaised
  generalize hNext :
    TokenMachine.step (withLimit (limit m + 1) m) = out at hRaised
  cases hRaised with
  | error hPlain => exact absurd hCause (hPlain _)
  | @tooDeep t _ _ m₁ _ hDeep hOpens =>
      refine ⟨hDeep, t, hOpens, fun l hLt => ?_⟩
      -- One limit more opens the container, so all others do.
      rcases Nat.eq_or_lt_of_le (Nat.succ_le_of_lt hLt) with rfl | hLt'
      · exact ⟨m₁, hNext⟩
      · have hWithin' :
            depth (withLimit (limit m + 1) m) ≤
              limit (withLimit (limit m + 1) m) := by
          rw [depth_withLimit, limit_withLimit]
          exact Nat.le_succ_of_le hWithin
        have hAgain :
            Raised (withLimit l) _ _ _ (TokenMachine.step _) :=
          raised hWithin' (by rwa [limit_withLimit])
        rw [hNext, withLimit_withLimit] at hAgain
        generalize hLast :
          TokenMachine.step (withLimit l m) = out' at hAgain
        cases hAgain with
        | ok => exact ⟨_, rfl⟩

/-
  A run that has failed because of its limit has delivered tokens
  behind which every greater limit opens one container too many.
-/
theorem beyond_of_failedOnRun
    {cause : Cause}
    {s : Stream μ}
    (hStart : depth m = 0)
    (hCause : cause.BeyondLimit l)
    (h : Stream.FailedOnRun (withLimit l m) cause s) :
    ∃ ts t s₁ e₁,
      (Stream.start (withLimit l m)).Delivers ts s₁ ∧
        s₁.next = (.error e₁, s) ∧ e₁.cause = cause ∧
        t.opens = true ∧
        (openContainers (ts ++ [t])).length = l + 1 ∧
        ∀ l', l < l' →
          ∃ s₂,
            (Stream.start (withLimit l' m)).Delivers (ts ++ [t])
              s₂ := by
  rcases h with ⟨ts, s₁, e₁, hDelivers, hError, rfl⟩
  rcases hDelivers.exists_start with ⟨m₁, rfl⟩
  have hDepth := depth_withLimit l m
  rw [hStart] at hDepth
  rcases depth_of_delivers hDepth hDelivers with
    ⟨hCount, hSame, hWithin⟩
  rw [limit_withLimit] at hSame
  rcases Stream.step_of_next_start_error hError with ⟨m₂, hStep⟩
  rcases opens_beyond hWithin hStep (hSame ▸ hCause) with
    ⟨hDeep, t, hOpens, hBeyond⟩
  refine ⟨ts, t, _, e₁, hDelivers, hError, rfl, hOpens, ?_, ?_⟩
  · rw [openContainers_append, Token.length_enclose,
      Token.nest_of_opens hOpens, ← hCount]
    omega
  · intro l' hLt
    rcases hBeyond l' (hSame ▸ hLt) with ⟨m₃, hOpen⟩
    exact ⟨Stream.start m₃,
      (delivers_raised hStart hLt hDelivers).concat
        (Stream.next_start_ok_iff.mpr ⟨m₃, hOpen, rfl⟩)⟩

------------------------------------------------------------
-- Decoding
------------------------------------------------------------

variable [LawfulMachine μ]

/- Two limits give the same result, or the smaller one cuts. -/
theorem decodeDocument_raised
    (hStart : depth m = 0)
    (hLimit : l ≤ l')
    (shape : Shape) :
    (decodeDocument shape (Stream.start (withLimit l' m))).1 =
        (decodeDocument shape (Stream.start (withLimit l m))).1 ∨
      ∃ e,
        (decodeDocument shape (Stream.start (withLimit l m))).1 =
            .error e ∧
          e.cause.BeyondLimit l := by
  rcases Nat.eq_or_lt_of_le hLimit with rfl | hLt
  · exact .inl rfl
  · exact decodeDocument_early (early hLt) shape
      (raisedTo_start hStart l l')

/- An error of the limit is a failure of the source. -/
theorem failedOnRun_of_beyond
    {e : DecodeError}
    {s : Stream μ}
    {shape : Shape}
    (hStart : depth m = 0)
    (hRun : decodeDocument shape (Stream.start m) = (.error e, s))
    (hCause : e.cause.BeyondLimit l) :
    Stream.FailedOnRun m e.cause s := by
  let L := Stream.limitedLockstep m (Stream.start m).left hStart
  have hBound := Stream.left_le_bound (Stream.start m)
  have hTogether :=
    L.decodeDocument shape (Stream.ready_start m hStart) hBound hBound
      (Nat.min_le_right _ _)
  rw [hRun] at hTogether
  cases hTogether with
  | error hFails =>
      rcases hFails.2 with hValue | hFailed
      · rcases hCause with ⟨position, hEq⟩
        rw [hEq] at hValue
        exact hValue.elim
      · exact hFailed

theorem limitOnlyCuts
    (hStart : depth m = 0)
    (hLimit : l ≤ l')
    (shape : Shape) :
    LimitOnlyCuts (fun l => Stream.start (withLimit l m)) shape l
      l' := by
  have hDepth := depth_withLimit l m
  rw [hStart] at hDepth
  constructor
  · intro hPlain
    rcases decodeDocument_raised hStart hLimit shape with
      hSame | ⟨e, hError, hCause⟩
    · exact hSame
    · exact absurd hCause (hPlain hError)
  · intro e s hRun hCause
    exact beyond_of_failedOnRun hStart hCause
      (failedOnRun_of_beyond hDepth hRun hCause)
  · intro v hOk
    rcases decodeDocument_raised hStart hLimit shape with
      hSame | ⟨e, hError, _⟩
    · exact hSame.trans hOk
    · rw [hError] at hOk
      cases hOk

end LimitedMachine

------------------------------------------------------------
-- All Inputs
------------------------------------------------------------

/-
  A greater limit changes nothing but what the smaller one cuts,
  over all bytes and all parsed documents.
-/
theorem raising_limit_keeps_results
    (limit limit' : Nat)
    (hLimit : limit ≤ limit') :
    (∀ (bytes : List UInt8) (fault : Option String) (shape : Shape),
      LimitOnlyCuts (Scanner.stream bytes fault) shape limit
        limit') ∧
    ∀ (j : Json) (shape : Shape),
      LimitOnlyCuts (ValueWalk.stream j) shape limit limit' := by
  constructor
  · intro bytes fault shape
    have hStart :
        LimitedMachine.depth (Scanner.start bytes fault 0) = 0 :=
      rfl
    exact LimitedMachine.limitOnlyCuts hStart hLimit shape
  · intro j shape
    have hStart : LimitedMachine.depth (ValueWalk.start j 0) = 0 :=
      rfl
    exact LimitedMachine.limitOnlyCuts hStart hLimit shape

/- A list in a list, as bytes. -/
def nestedListBytes : List UInt8 :=
  [0x5b, 0x5b, 0x5d, 0x5d]

/-
  The inner list is beyond a limit of one, and stays what it is
  from a limit of two on.
-/
theorem nestedList_keeps_result :
    2 ≤ 5 ∧
    (decodeDocument (.list (.list (.scalar .bool)))
        (Scanner.stream nestedListBytes none 5)).1 =
      .ok (.list [.list []]) ∧
    1 ≤ 5 ∧
    ∃ ts t,
      t.opens = true ∧ (openContainers (ts ++ [t])).length = 2 ∧
        ∀ l, 1 < l →
          ∃ s,
            (Scanner.stream nestedListBytes none l).Delivers
              (ts ++ [t]) s := by
  have hKeeps :=
    (raising_limit_keeps_results 2 5 (by decide)).1 nestedListBytes
      none (.list (.list (.scalar .bool)))
  have hCuts :=
    (raising_limit_keeps_results 1 5 (by decide)).1 nestedListBytes
      none (.list (.list (.scalar .bool)))
  rcases hCuts.reached rfl ⟨_, rfl⟩ with
    ⟨ts, t, _, _, _, _, _, hOpens, hCount, hDelivers⟩
  exact ⟨by decide, hKeeps.kept rfl, by decide, ts, t, hOpens, hCount,
    hDelivers⟩

end TreeWire
