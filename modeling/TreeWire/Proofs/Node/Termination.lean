import TreeWire.Proofs.Node.Lockstep
import TreeWire.Proofs.Source.Limits

/-
  Decoding ends, and within so many calls.

  `ComesTo tokens calls shape s out` says that a decoder with
  more parts than so many tokens, and with at least so many
  levels, gives one result, whatever it would do with a node or
  list beyond its levels.  So no more than that many calls of the
  decoder are ever active within one another.  Nor are its parts
  used up: an error that lies in the input is one with which the
  source has failed.

  On a source that yields finitely many tokens, decoding ends
  within as many calls as there are tokens, and one more.  On a
  machine with a limit of nesting it ends within one call more
  than the limit, whatever the input is and however deep it
  nests.

  Key definitions include:
    * `Stream.Yields`
    * `ComesTo`

  Main statements:
    * `Stream.Yields.comesTo`
    * `Stream.comesTo_decode`
    * `decoding_ends`
-/

namespace TreeWire

------------------------------------------------------------
-- Coming to a Result
------------------------------------------------------------

/-
  A decoder comes to a result within so many calls, on so many
  tokens.  An error of the input is the failure of the source.
-/
structure ComesTo
    {μ : Type}
    [TokenMachine μ]
    (tokens calls : Nat)
    (shape : Shape)
    (s : Stream μ)
    (out : Except DecodeError Tree × Stream μ) : Prop where
  result :
    ∀ (cut : Shape → Reading (Stream μ) Tree) {parts levels : Nat},
      tokens < parts → calls ≤ levels →
        decodeCut cut parts levels shape s = out
  error :
    ∀ {e}, out.1 = .error e →
      e.cause.OfValue ∨
        ∃ e', out.2.failed = some e' ∧ e'.cause = e.cause

/-
  A lockstep of a decoder with itself shows that it comes to a
  result, if errors of the input are failures of the source.
-/
theorem comesTo_of_lockstep
    {μ : Type}
    [TokenMachine μ]
    {L : Lockstep (Stream μ) (Stream μ)}
    {s : Stream μ}
    {cut : Shape → Reading (Stream μ) Tree}
    {n tokens calls parts levels : Nat}
    (hIdle : ∀ {s s'}, L.Idle s s' → s = s')
    (hFails :
      ∀ {e s s'}, L.Fails e s s' →
        s = s' ∧
          (e.cause.OfValue ∨
            ∃ e', s.failed = some e' ∧ e'.cause = e.cause))
    (h : L.Ready n 0 s s)
    (hTokens : n ≤ tokens)
    (hCalls : L.limit < calls)
    (hParts : n < parts)
    (hLevels : L.limit < levels)
    (shape : Shape) :
    ComesTo tokens calls shape s
      (decodeCut cut parts levels shape s) := by
  have hTogether :
      ∀ (cut' : Shape → Reading (Stream μ) Tree)
        {parts' levels' : Nat},
        n < parts' → L.limit < levels' →
          L.Outcome (fun _ => L.Past n 0)
            (decodeCut cut' parts' levels' shape s)
            (decodeCut cut parts levels shape s) := by
    intro cut' parts' levels' hParts' hLevels'
    apply L.decodeCut hParts' hParts hLevels' hLevels shape h
    · exact Nat.lt_succ_self n
    · exact Nat.lt_succ_self _
  constructor
  · intro cut' parts' levels' hParts' hLevels'
    have hSame := hTogether cut' (Nat.lt_of_le_of_lt hTokens hParts')
      (Nat.lt_of_lt_of_le hCalls hLevels')
    generalize decodeCut cut' parts' levels' shape s = out at hSame ⊢
    generalize decodeCut cut parts levels shape s = out' at hSame ⊢
    cases hSame with
    | ok hPast => rw [hIdle hPast.rested.idle]
    | error hError => rw [(hFails hError).1]
  · intro e hError
    have hItself := hTogether cut hParts hLevels
    generalize decodeCut cut parts levels shape s = out at hItself hError
    cases hItself with
    | ok => cases hError
    | error hLast =>
        cases hError
        exact (hFails hLast).2

------------------------------------------------------------
-- Sources That Yield Tokens
------------------------------------------------------------

namespace Stream

variable {μ : Type} [TokenMachine μ]
variable {s s₁ : Stream μ}
variable {t : Token} {ts : List Token}

/- The results are tokens, and behind them the end for good. -/
def Yields
    (s : Stream μ)
    (ts : List Token) : Prop :=
  ∀ n, s.resultAt n = .ok (ts[n]?.getD .eof)

/- How many tokens there are before the end. -/
def countTokens
    (ts : List Token) : Nat :=
  ts.countP (· ≠ .eof)

theorem Yields.next
    (h : s.Yields ts) :
    ∃ s₁,
      s.next = (.ok (ts.head?.getD .eof), s₁) ∧
        s₁.Yields ts.tail := by
  refine ⟨s.next.2, Prod.ext ?_ rfl, fun n => ?_⟩
  · have hFirst := h 0
    rw [resultAt, ← List.head?_eq_getElem?] at hFirst
    exact hFirst
  · have hLater := h (n + 1)
    rw [resultAt] at hLater
    rw [hLater, List.getElem?_tail]

theorem Yields.hold
    (h : s₁.Yields ts)
    (hNext : s.next = (.ok t, s₁)) :
    (s₁.hold t).Yields (t :: ts) := by
  have hAgain := next_hold_of_next t hNext
  intro n
  cases n with
  | zero =>
      rw [resultAt, hAgain]
      rfl
  | succ n =>
      rw [resultAt, hAgain, List.getElem?_cons_succ]
      exact h n

/- A source that yields tokens, so many of them at most. -/
structure YieldsWithin
    (tokens n k : Nat)
    (s : Stream μ)
    (ts : List Token) : Prop where
  yields : s.Yields ts
  left_le : countTokens ts ≤ n
  tokens_le : k + countTokens ts ≤ tokens

/- What the next token leaves of a source that yields tokens. -/
theorem YieldsWithin.next
    {tokens n k : Nat}
    (h : YieldsWithin tokens n k s ts) :
    ∃ t s₁ rest,
      s.next = (.ok t, s₁) ∧
        YieldsWithin tokens n k (s₁.hold t) (t :: rest) ∧
        (t = .eof → YieldsWithin tokens n k s₁ rest) ∧
        (t ≠ .eof →
          ∃ m, m < n ∧ YieldsWithin tokens m (t.nest k) s₁ rest) := by
  rcases h with ⟨hYields, hLeft, hTokens⟩
  rcases hYields.next with ⟨s₁, hNext, hRest⟩
  have hHeld := hRest.hold hNext
  cases ts with
  | nil =>
      exact ⟨.eof, s₁, [], hNext, ⟨hHeld, hLeft, hTokens⟩,
        fun _ => ⟨hRest, hLeft, hTokens⟩, fun hEof => absurd rfl hEof⟩
  | cons t ts =>
      refine ⟨t, s₁, ts, hNext, ⟨hHeld, hLeft, hTokens⟩, ?_, ?_⟩
      · intro _
        have hCount : countTokens ts ≤ countTokens (t :: ts) :=
          List.Sublist.countP_le (List.sublist_cons_self t ts)
        exact ⟨hRest, by omega, by omega⟩
      · intro hEof
        have hCount : countTokens (t :: ts) = countTokens ts + 1 :=
          List.countP_cons_of_pos (by simpa using hEof)
        have hNest := Token.nest_le_succ k t
        exact ⟨countTokens ts, by omega, hRest, Nat.le_refl _,
          by omega⟩

/- The same decoder twice, on a source that yields tokens. -/
def yieldingLockstep
    (μ : Type)
    [TokenMachine μ]
    (tokens : Nat) :
    Lockstep (Stream μ) (Stream μ) where
  limit := tokens
  Ready := fun n k s s' =>
    s = s' ∧ ∃ ts, YieldsWithin tokens n k s ts
  Idle := Eq
  Fails := fun e s s' => s = s' ∧ e.cause.OfValue
  mono := by
    intro n n' k k' s s' hn hk h
    rcases h with ⟨hSame, ts, hYields, hLeft, hTokens⟩
    exact ⟨hSame, ts, hYields, by omega, by omega⟩
  depth_le := by
    intro n k s s' h
    rcases h with ⟨_, ts, _, _, hTokens⟩
    omega
  next := by
    intro n k s s' h
    rcases h with ⟨rfl, ts, hWithin⟩
    rcases hWithin.next with
      ⟨t, s₁, rest, hNext, hHeld, hEnd, hOther⟩
    change Together _ _ s.next s.next
    rw [hNext]
    apply Together.ok
    refine ⟨rfl, ⟨rfl, _, hHeld⟩, fun hEof => ⟨rfl, _, hEnd hEof⟩,
      fun hEof => ?_⟩
    rcases hOther hEof with ⟨m, hLt, hLast⟩
    exact ⟨m, hLt, rfl, rest, hLast⟩
  fails_value := fun hIdle hCause => ⟨hIdle, hCause⟩
  fails_hop := fun _ h => h

/-
  Decoding ends on a source that yields finitely many tokens,
  whatever they are.
-/
theorem Yields.comesTo
    (h : s.Yields ts)
    (shape : Shape) :
    ∃ out,
      ComesTo ts.length (ts.length + 1) shape s out ∧
        (ts.length ≤ s.bound → decode shape s = out) := by
  let L := yieldingLockstep μ (countTokens ts)
  have hReady : L.Ready (countTokens ts) 0 s s :=
    ⟨rfl, ts, h, Nat.le_refl _, Nat.le_of_eq (Nat.zero_add _)⟩
  have hCount : countTokens ts ≤ ts.length := List.countP_le_length
  have hEnough := Nat.lt_succ_of_le hCount
  have hComes :
      ComesTo ts.length (ts.length + 1) shape s
        (decodeCut (fun _ => exhausted) (ts.length + 1)
          (ts.length + 1) shape s) :=
    comesTo_of_lockstep (L := L) id
      (fun hFails => ⟨hFails.1, .inl hFails.2⟩) hReady hCount
      hEnough hEnough hEnough shape
  refine ⟨_, hComes, fun hBound => ?_⟩
  rw [decode_eq_decodeCut]
  exact hComes.result _ (Nat.lt_succ_of_le hBound)
    (Nat.succ_le_succ hBound)

------------------------------------------------------------
-- Machines with a Limit
------------------------------------------------------------

/- A stream goes on as one whose machine is in a certain state. -/
def StandsAt
    (m : μ)
    (s : Stream μ) : Prop :=
  s.next = (start m).next

/- A stream that is given its token back stands where it stood. -/
theorem StandsAt.hold
    {m m' : μ}
    (h : s.StandsAt m)
    (hNext : s.next = (.ok t, start m')) :
    ((start m').hold t).StandsAt m := by
  have hAgain := next_hold_of_next t hNext
  rw [← hNext] at hAgain
  exact hAgain.trans h

variable [LimitedMachine μ]

/-
  A state of a run from `m₀` in which at most `n` tokens are left
  and at least `k` containers are open.
-/
structure OnRun
    (m₀ : μ)
    (tokens n k : Nat)
    (s : Stream μ)
    (m : μ) : Prop where
  reached : ∃ ts, (start m₀).Delivers ts (start m)
  stands : s.StandsAt m
  left_le : s.left ≤ n
  depth_le : k ≤ LimitedMachine.depth m
  tokens_le : k + s.left ≤ tokens

/- The source has failed at the end of a run from `m₀`. -/
def FailedOnRun
    (m₀ : μ)
    (cause : Cause)
    (s : Stream μ) : Prop :=
  ∃ ts s₁ e,
    (start m₀).Delivers ts s₁ ∧ s₁.next = (.error e, s) ∧
      e.cause = cause

/- The depth on a run stays within the limit. -/
theorem OnRun.depth_le_limit
    {m₀ m : μ}
    {tokens n k : Nat}
    (h : OnRun m₀ tokens n k s m)
    (hStart : LimitedMachine.depth m₀ = 0) :
    k ≤ min (LimitedMachine.limit m₀) tokens := by
  rcases h.reached with ⟨ts, hDelivers⟩
  rcases LimitedMachine.depth_of_delivers hStart hDelivers with
    ⟨_, hLimit, hWithin⟩
  have hDepth := h.depth_le
  have hTokens := h.tokens_le
  rw [hLimit] at hWithin
  exact Nat.le_min.mpr ⟨by omega, by omega⟩

variable [LawfulMachine μ]

/- What a token leaves of a run. -/
theorem OnRun.next
    {m₀ m m' : μ}
    {tokens n k : Nat}
    (h : OnRun m₀ tokens n k s m)
    (hStep : TokenMachine.step m = (.ok t, m')) :
    s.next = (.ok t, start m') ∧
      OnRun m₀ tokens n k ((start m').hold t) m ∧
      (t = .eof → OnRun m₀ tokens n k (start m') m') ∧
      (t ≠ .eof →
        ∃ l, l < n ∧ OnRun m₀ tokens l (t.nest k) (start m') m') := by
  have hNext : s.next = (.ok t, start m') :=
    h.stands.trans (next_start_ok_iff.mpr ⟨m', hStep, rfl⟩)
  have hReached : ∃ ts, (start m₀).Delivers ts (start m') := by
    rcases h.reached with ⟨ts, hDelivers⟩
    exact ⟨ts ++ [t], hDelivers.concat
      (next_start_ok_iff.mpr ⟨m', hStep, rfl⟩)⟩
  have hDepth := LimitedMachine.depth_of_step hStep
  have hLeft := h.left_le
  have hTokens := h.tokens_le
  refine ⟨hNext, ?_, ?_, ?_⟩
  · have hHold := left_hold_le hNext
    exact ⟨h.reached, h.stands.hold hNext, by omega, h.depth_le,
      by omega⟩
  · rintro rfl
    have hLe := left_next_le hNext
    exact ⟨hReached, rfl, by omega, hDepth ▸ h.depth_le, by omega⟩
  · intro hEof
    have hLt := left_next_lt hNext hEof
    have hNest := Token.nest_le_succ k t
    refine ⟨(start m').left, by omega, hReached, rfl, Nat.le_refl _,
      ?_, by omega⟩
    rw [hDepth]
    exact Token.nest_mono h.depth_le t

/- The same decoder twice, on a machine with a limit. -/
def limitedLockstep
    (m₀ : μ)
    (tokens : Nat)
    (hStart : LimitedMachine.depth m₀ = 0) :
    Lockstep (Stream μ) (Stream μ) where
  limit := min (LimitedMachine.limit m₀) tokens
  Ready := fun n k s s' => s = s' ∧ ∃ m, OnRun m₀ tokens n k s m
  Idle := Eq
  Fails := fun e s s' =>
    s = s' ∧ (e.cause.OfValue ∨ FailedOnRun m₀ e.cause s)
  mono := by
    intro n n' k k' s s' hn hk h
    rcases h with ⟨hSame, m, hRun⟩
    have hLeft := hRun.left_le
    have hDepth := hRun.depth_le
    have hTokens := hRun.tokens_le
    exact ⟨hSame, m, hRun.reached, hRun.stands, by omega, by omega,
      by omega⟩
  depth_le := by
    intro n k s s' h
    rcases h with ⟨_, m, hRun⟩
    exact hRun.depth_le_limit hStart
  next := by
    intro n k s s' h
    rcases h with ⟨rfl, m, hRun⟩
    change Together _ _ s.next s.next
    rcases hStep : TokenMachine.step m with ⟨e | t, m'⟩
    · have hNext := hRun.stands.trans (next_start_error hStep)
      rcases hRun.reached with ⟨ts, hDelivers⟩
      rw [hNext]
      exact .error ⟨rfl, .inr ⟨ts, start m, e, hDelivers,
        next_start_error hStep, rfl⟩⟩
    · rcases hRun.next hStep with ⟨hNext, hHeld, hEnd, hOther⟩
      rw [hNext]
      apply Together.ok
      refine ⟨rfl, ⟨rfl, m, hHeld⟩, fun hEof => ⟨rfl, m', hEnd hEof⟩,
        fun hEof => ?_⟩
      rcases hOther hEof with ⟨l, hLt, hLast⟩
      exact ⟨l, hLt, rfl, m', hLast⟩
  fails_value := fun hIdle hCause => ⟨hIdle, .inl hCause⟩
  fails_hop := fun _ h => h

/- A machine before its first step, where nothing is open. -/
theorem ready_start
    (m₀ : μ)
    (hStart : LimitedMachine.depth m₀ = 0) :
    (limitedLockstep m₀ (start m₀).left hStart).Ready
      (start m₀).left 0 (start m₀) (start m₀) := by
  refine ⟨rfl, m₀, ⟨[], .nil _⟩, rfl, Nat.le_refl _,
    Nat.zero_le _, ?_⟩
  rw [Nat.zero_add]

/-
  Decoding from a machine with a limit ends within one call more
  than the limit.
-/
theorem comesTo_decode
    (m₀ : μ)
    (hStart : LimitedMachine.depth m₀ = 0)
    (shape : Shape) :
    ComesTo (TokenMachine.bound m₀) (LimitedMachine.limit m₀ + 1)
      shape (start m₀) (decode shape (start m₀)) := by
  let L := limitedLockstep m₀ (start m₀).left hStart
  have hBound := left_le_bound (start m₀)
  have hLimit : L.limit ≤ LimitedMachine.limit m₀ := Nat.min_le_left _ _
  have hTokens : L.limit ≤ (start m₀).left := Nat.min_le_right _ _
  rw [decode_eq_decodeCut]
  apply comesTo_of_lockstep (L := L) id ?_ (ready_start m₀ hStart)
  · exact hBound
  · exact Nat.lt_succ_of_le hLimit
  · exact Nat.lt_succ_of_le hBound
  · exact Nat.lt_succ_of_le (Nat.le_trans hTokens hBound)
  · intro e s s' hFails
    refine ⟨hFails.1, hFails.2.imp id fun hFailed => ?_⟩
    rcases hFailed with ⟨ts, s₁, e', _, hError, hCause⟩
    exact ⟨e', failed_of_error hError, hCause⟩

end Stream

------------------------------------------------------------
-- All Sources
------------------------------------------------------------

/- A list of tokens yields them. -/
theorem TokenList.stream_yields
    (tokens : List Token) :
    (stream tokens).Yields tokens := by
  induction tokens with
  | nil =>
      intro n
      exact Stream.resultAt_of_again rfl rfl n
  | cons t tokens ih =>
      intro n
      cases n with
      | zero => rfl
      | succ n => exact ih n

/-
  Decoding ends on every source that yields finitely many tokens,
  well-formed or not.  From a scanner and from a walk, over any
  input, it ends within one call more than the limit of nesting.
-/
theorem decoding_ends :
    (∀ {μ : Type} [TokenMachine μ] (s : Stream μ) (ts : List Token)
      (shape : Shape),
      s.Yields ts →
        ∃ out,
          ComesTo ts.length (ts.length + 1) shape s out ∧
            (ts.length ≤ s.bound → decode shape s = out)) ∧
    (∀ (bytes : List UInt8) (fault : Option String) (limit : Nat)
      (shape : Shape),
      ComesTo bytes.length (limit + 1) shape
        (Scanner.stream bytes fault limit)
        (decode shape (Scanner.stream bytes fault limit))) ∧
    ∀ (j : Json) (limit : Nat) (shape : Shape),
      ComesTo j.tokens.length (limit + 1) shape
        (ValueWalk.stream j limit)
        (decode shape (ValueWalk.stream j limit)) := by
  refine ⟨fun s ts shape h => h.comesTo shape, ?_, ?_⟩
  · intro bytes fault limit shape
    exact Stream.comesTo_decode (Scanner.start bytes fault limit) rfl
      shape
  · intro j limit shape
    have hTokens : (ValueWalk.start j limit).ahead = j.tokens := by
      simp [ValueWalk.start, ValueWalk.ahead, ValueWalk.stepTokens]
    have hComes :=
      Stream.comesTo_decode (ValueWalk.start j limit) rfl shape
    change ComesTo (ValueWalk.start j limit).ahead.length _ _ _ _
      at hComes
    rw [hTokens] at hComes
    exact hComes

/- Two lists that are opened and never closed. -/
def unclosedLists : List Token :=
  [.arrayOpen, .arrayOpen]

/- The end is found where an element of the inner list should be. -/
theorem unclosedLists_end :
    (TokenList.stream unclosedLists).Yields unclosedLists ∧
    ∃ s,
      ComesTo 2 3 (.list (.list (.scalar .bool)))
        (TokenList.stream unclosedLists)
        (.error ⟨.wrongShape "value" "end of input",
          [.index 0, .index 0]⟩, s) := by
  have hYields := TokenList.stream_yields unclosedLists
  rcases decoding_ends.1 _ _ (.list (.list (.scalar .bool))) hYields
    with ⟨out, hComes, hDecode⟩
  cases hDecode (Nat.le_refl 2)
  exact ⟨hYields, _, hComes⟩

end TreeWire
