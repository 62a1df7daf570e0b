import TreeWire.Proofs.Source.Readings
import TreeWire.Proofs.Source.Results

/-
  Sessions: calls of a source in any order.

  A reading goes through a view: it asks for any token, for the
  next key, or for the start of a value.  A token is given back
  right after the reading that took it.  `Session s events s'`
  says that calls, with what they answered, lead from one state
  to another.

  A session never loses, repeats or reorders a token.  Each of
  its states stands after some number of plain results, with the
  next of them in the slot or not, or the source has failed for
  good.  So a reading always answers what its view makes of the
  next plain result.

  Key definitions include:
    * `View`
    * `Session`
    * `kept`
    * `Stream.StandsAfter`
    * `Stream.TakesBack`

  Main statements:
    * `View.read_apply`
    * `Session.standsAfter`
    * `Session.kept_results`
    * `sources_take_back`
-/

namespace TreeWire

------------------------------------------------------------
-- Views
------------------------------------------------------------

/- What a reading asks for. -/
inductive View where
  | token
  | key
  | value
  deriving DecidableEq, Repr

/- What a reading answers: a token, or a key if there is one. -/
inductive Answer where
  | token (t : Token)
  | key (name : Option String)
  deriving DecidableEq, Repr

namespace View

/- Read through a view. -/
def read
    {σ : Type}
    [TokenSource σ]
    (view : View) : Reading σ Answer :=
  match view with
  | .token => do pure (.token (← nextToken))
  | .key => do pure (.key (← nextKey))
  | .value => do pure (.token (← nextValue))

/- The words for what a view asks for. -/
def text : View → String
  | .token => "token"
  | .key => "object key"
  | .value => "value"

/- What a view makes of a token. -/
def ofToken
    (view : View)
    (t : Token) : Except DecodeError Answer :=
  match view, t with
  | .token, t => .ok (.token t)
  | .key, .key name => .ok (.key (some name))
  | .key, .objectClose => .ok (.key none)
  | .key, .eof => .ok (.key none)
  | .key, t => .error (Token.wrongShape (text .key) t)
  | .value, t =>
      if t.startsValue then
        .ok (.token t)
      else
        .error (Token.wrongShape (text .value) t)

/- What a view makes of the result of a plain reading. -/
def ofResult
    (view : View) :
    Except DecodeError Token → Except DecodeError Answer
  | .ok t => view.ofToken t
  | .error e => .error e

variable {μ : Type} [TokenMachine μ]

/- A view sees the next token, and takes exactly that one. -/
theorem read_apply
    (view : View)
    (s : Stream μ) :
    view.read s = (view.ofResult s.next.1, s.next.2) := by
  cases hNext : s.next with
  | mk result s₁ =>
      cases result with
      | error e =>
          cases view with
          | token => exact nextToken_bind_error hNext
          | key => exact Action.bind_error (nextKey_error hNext)
          | value => exact Action.bind_error (nextValue_error hNext)
      | ok t =>
          cases view with
          | token => exact nextToken_bind_ok hNext
          | key =>
              cases t with
              | key name => exact Action.bind_ok (nextKey_key hNext)
              | objectClose =>
                  exact Action.bind_ok (nextKey_close hNext)
              | eof => exact Action.bind_ok (nextKey_eof hNext)
              | _ =>
                  exact Action.bind_error
                    (nextKey_other hNext nofun nofun nofun)
          | value =>
              simp only [ofResult, ofToken]
              cases hStarts : t.startsValue with
              | true =>
                  exact Action.bind_ok
                    (nextValue_starts hNext hStarts)
              | false =>
                  exact Action.bind_error
                    (nextValue_other hNext hStarts)

/- A view refuses a token for its shape only. -/
theorem ofToken_error
    {view : View}
    {t : Token}
    {e : DecodeError}
    (h : view.ofToken t = .error e) :
    e = Token.wrongShape view.text t := by
  unfold ofToken at h
  split at h
  · cases h
  · cases h
  · cases h
  · cases h
  · cases h
    rfl
  · split at h
    · cases h
    · cases h
      rfl

end View

------------------------------------------------------------
-- Sessions
------------------------------------------------------------

/- A call and what it answered, or the token given back. -/
inductive Event where
  | read (view : View) (answer : Except DecodeError Answer)
  | back (t : Token)

/-
  Calls one after another.  A token is given back right after
  the reading that took it, whatever that reading made of it.
-/
inductive Session
    {μ : Type}
    [TokenMachine μ] :
    Stream μ → List Event → Stream μ → Prop where
  | nil
      (s : Stream μ) :
      Session s [] s
  | read
      {s s₁ s' : Stream μ}
      {view : View}
      {answer : Except DecodeError Answer}
      {events : List Event}
      (hRead : view.read s = (answer, s₁))
      (hRest : Session s₁ events s') :
      Session s (.read view answer :: events) s'
  | back
      {s s₁ s' : Stream μ}
      {view : View}
      {answer : Except DecodeError Answer}
      {t : Token}
      {events : List Event}
      (hNext : s.next = (.ok t, s₁))
      (hRead : view.read s = (answer, s₁))
      (hRest : Session (s₁.hold t) events s') :
      Session s (.read view answer :: .back t :: events) s'

/-
  The readings of a session, without each token given back and
  the reading behind it, which gives that token again.
-/
def kept : List Event → List (View × Except DecodeError Answer)
  | [] => []
  | .read view answer :: events => (view, answer) :: kept events
  | .back _ :: events => (kept events).tail

------------------------------------------------------------
-- Where a Session Stands
------------------------------------------------------------

namespace Stream

variable {μ : Type} [TokenMachine μ]
variable {s₀ s s₁ : Stream μ}
variable {t : Token}
variable {n : Nat}

/-
  A state after so many results of plain readings: all of them
  are taken, or the next one is in the slot, or one of them was
  a failure.
-/
inductive StandsAfter
    (s₀ : Stream μ) :
    Nat → Stream μ → Prop where
  | ready
      {ts : List Token}
      {s : Stream μ}
      (hDelivers : s₀.Delivers ts s) :
      StandsAfter s₀ ts.length s
  | held
      {ts : List Token}
      {s s₁ : Stream μ}
      {t : Token}
      (hDelivers : s₀.Delivers ts s)
      (hNext : s.next = (.ok t, s₁)) :
      StandsAfter s₀ ts.length (s₁.hold t)
  | failed
      {ts : List Token}
      {s s₁ : Stream μ}
      {e : DecodeError}
      {n : Nat}
      (hDelivers : s₀.Delivers ts s)
      (hNext : s.next = (.error e, s₁))
      (hLater : ts.length < n) :
      StandsAfter s₀ n s₁

/- The first result behind tokens that are delivered. -/
theorem resultAt_length
    {ts : List Token}
    (h : s₀.Delivers ts s) :
    s₀.resultAt ts.length = s.next.1 := by
  rw [resultAt_of_delivers h]
  simp [resultAt]

theorem Delivers.concat
    {ts : List Token}
    (h : s₀.Delivers ts s)
    (hNext : s.next = (.ok t, s₁)) :
    s₀.Delivers (ts ++ [t]) s₁ :=
  append_iff.mpr ⟨s, h, singleton_iff.mpr hNext⟩

namespace StandsAfter

/- What is read next is the next plain result. -/
theorem result
    (h : StandsAfter s₀ n s) :
    s.next.1 = s₀.resultAt n := by
  cases h with
  | ready hDelivers => exact (resultAt_length hDelivers).symm
  | held hDelivers hNext =>
      rw [resultAt_length hDelivers, hNext,
        next_hold_of_next _ hNext]
  | @failed ts s' _ e _ hDelivers hNext hLater =>
      have hAgain := next_of_error hNext
      have hNone : ts[n]? = none :=
        List.getElem?_eq_none (Nat.le_of_lt hLater)
      rw [hAgain, resultAt_of_delivers hDelivers, hNone]
      exact (resultAt_of_again hNext hAgain _).symm

/- A reading goes on to the next plain result. -/
theorem next
    (h : StandsAfter s₀ n s) :
    StandsAfter s₀ (n + 1) s.next.2 := by
  cases h with
  | @ready ts _ hDelivers =>
      cases hNext : s.next with
      | mk result s₁ =>
          cases result with
          | ok t =>
              have hReady := ready (hDelivers.concat hNext)
              rwa [List.length_append] at hReady
          | error e =>
              exact failed hDelivers hNext (Nat.lt_succ_self _)
  | held hDelivers hNext =>
      have hReady := ready (hDelivers.concat hNext)
      rw [next_hold_of_next _ hNext]
      rwa [List.length_append] at hReady
  | failed hDelivers hNext hLater =>
      rw [next_of_error hNext]
      exact failed hDelivers hNext (Nat.lt_succ_of_lt hLater)

/- The token just taken, given back, is the next result again. -/
theorem hold
    (h : StandsAfter s₀ n s)
    (hNext : s.next = (.ok t, s₁)) :
    StandsAfter s₀ n (s₁.hold t) := by
  cases h with
  | ready hDelivers => exact held hDelivers hNext
  | held hDelivers hFirst =>
      rw [next_hold_of_next _ hFirst] at hNext
      cases hNext
      exact held hDelivers hFirst
  | failed _ hFirst _ =>
      rw [next_of_error hFirst] at hNext
      cases hNext

/- The token that is read next, behind those before it. -/
theorem delivers
    (h : StandsAfter s₀ n s)
    (hNext : s.next = (.ok t, s₁)) :
    ∃ ts, ts.length = n ∧ s₀.Delivers (ts ++ [t]) s₁ := by
  cases h with
  | ready hDelivers => exact ⟨_, rfl, hDelivers.concat hNext⟩
  | held hDelivers hFirst =>
      rw [next_hold_of_next _ hFirst] at hNext
      cases hNext
      exact ⟨_, rfl, hDelivers.concat hFirst⟩
  | failed _ hFirst _ =>
      rw [next_of_error hFirst] at hNext
      cases hNext

/- A source that has failed holds no token. -/
theorem held_or_failed
    {m : μ}
    (h : StandsAfter (start m) n s) :
    s.held = none ∨ s.failed = none := by
  cases h with
  | ready hDelivers =>
      rcases hDelivers.exists_start with ⟨m', rfl⟩
      exact .inl rfl
  | held hDelivers hNext =>
      rcases (hDelivers.concat hNext).exists_start with ⟨m', rfl⟩
      exact .inr rfl
  | failed _ hNext _ => exact .inl (held_of_next hNext)

end StandsAfter

end Stream

------------------------------------------------------------
-- Whole Sessions
------------------------------------------------------------

namespace Session

variable {μ : Type} [TokenMachine μ]
variable {s₀ s s' : Stream μ}
variable {events : List Event}
variable {n : Nat}

/- A reading leaves what the stream leaves. -/
theorem state_of_read
    {s₁ : Stream μ}
    {view : View}
    {answer : Except DecodeError Answer}
    (h : view.read s = (answer, s₁)) :
    s.next.2 = s₁ := by
  rw [View.read_apply] at h
  exact congrArg Prod.snd h

/-
  A session keeps standing after plain results.  The induction
  is on the session, one call for each step.
-/
theorem standsAfter
    (h : Session s events s')
    (hStands : s₀.StandsAfter n s) :
    ∃ n', s₀.StandsAfter n' s' := by
  induction h generalizing n with
  | nil => exact ⟨n, hStands⟩
  | read hRead _ ih =>
      rw [← state_of_read hRead] at ih
      exact ih hStands.next
  | back hNext _ _ ih => exact ih (hStands.hold hNext)

/-
  The readings that are kept answer what their views make of the
  plain results, one by one.
-/
theorem kept_results
    (h : Session s events s')
    (hStands : s₀.StandsAfter n s)
    {i : Nat}
    {view : View}
    {answer : Except DecodeError Answer}
    (hKept : (kept events)[i]? = some (view, answer)) :
    answer = view.ofResult (s₀.resultAt (n + i)) := by
  have hFirst :
      ∀ {s s₁ : Stream μ} {n : Nat} {view' : View}
        {answer' : Except DecodeError Answer},
        s₀.StandsAfter n s → view'.read s = (answer', s₁) →
        some (view', answer') = some (view, answer) →
        answer = view.ofResult (s₀.resultAt n) := by
    intro s s₁ n view' answer' hStands hRead hEq
    cases hEq
    rw [View.read_apply, hStands.result] at hRead
    exact (congrArg Prod.fst hRead).symm
  induction h generalizing n i with
  | nil => cases hKept
  | read hRead _ ih =>
      cases i with
      | zero => exact hFirst hStands hRead hKept
      | succ i =>
          rw [← state_of_read hRead] at ih
          rw [← Nat.add_assoc, Nat.add_right_comm]
          exact ih hStands.next hKept
  | back hNext hRead _ ih =>
      cases i with
      | zero => exact hFirst hStands hRead hKept
      | succ i =>
          -- The first reading of the rest gives the token again.
          rw [kept, List.getElem?_cons_succ, kept,
            List.getElem?_tail] at hKept
          exact ih (hStands.hold hNext) hKept

/- The reading behind a token given back gives that token. -/
theorem given_again
    {before after : List Event}
    {t : Token}
    {view : View}
    {answer : Except DecodeError Answer}
    (h :
      Session s (before ++ .back t :: .read view answer :: after)
        s') :
    answer = view.ofToken t := by
  have hAgain :
      ∀ {s s₁ s₂ : Stream μ},
        s.next = (.ok t, s₁) →
        view.read (s₁.hold t) = (answer, s₂) →
        answer = view.ofToken t := by
    intro s s₁ s₂ hNext hRead
    rw [View.read_apply, Stream.next_hold_of_next t hNext] at hRead
    exact (congrArg Prod.fst hRead).symm
  generalize hAll :
    before ++ .back t :: .read view answer :: after = events at h
  induction h generalizing before with
  | nil => simp at hAll
  | read _ hRest ih =>
      cases before with
      | nil => cases hAll
      | cons event before => exact ih (List.cons.inj hAll).2
  | back hNext _ hRest ih =>
      rcases before with _ | ⟨event, _ | ⟨event', before⟩⟩
      · cases hAll
      · cases hAll
        cases hRest with
        | read hRead _ => exact hAgain hNext hRead
        | back _ hRead _ => exact hAgain hNext hRead
      · exact ih (List.cons.inj (List.cons.inj hAll).2).2

/- A source that has failed answers every call alike. -/
theorem sticky
    {e : DecodeError}
    (h : Session s events s')
    (hFailed : s.next = (.error e, s)) :
    s' = s ∧
      ∀ event ∈ events, ∃ view, event = .read view (.error e) := by
  induction h with
  | nil => exact ⟨rfl, nofun⟩
  | @read s s₁ s' view answer events hRead _ ih =>
      rw [View.read_apply, hFailed] at hRead
      cases hRead
      rcases ih hFailed with ⟨rfl, hEvents⟩
      refine ⟨rfl, ?_⟩
      rw [List.forall_mem_cons]
      exact ⟨⟨view, rfl⟩, hEvents⟩
  | back hNext =>
      rw [hFailed] at hNext
      cases hNext

end Session

------------------------------------------------------------
-- Sources That Take Back
------------------------------------------------------------

namespace Stream

/-
  What a source owes to its callers, whatever they call.

  The readings that are kept answer the plain results, and a
  token given back comes again.  The slot and the failure are
  never both in use.  A failure of the source comes again on
  every later reading and changes nothing any more.  An error of
  a view is about the shape of one token, which is taken; the
  reading behind it answers the next plain result.
-/
structure TakesBack
    {μ : Type}
    [TokenMachine μ]
    (s₀ : Stream μ) : Prop where
  results :
    ∀ {events s}, Session s₀ events s →
      ∀ {i answer} {view : View},
        (kept events)[i]? = some (view, answer) →
        answer = view.ofResult (s₀.resultAt i)
  given_again :
    ∀ {before after t answer s} {view : View},
      Session s₀ (before ++ .back t :: .read view answer :: after)
        s →
      answer = view.ofToken t
  slot :
    ∀ {events s}, Session s₀ events s →
      s.held = none ∨ s.failed = none
  sticky :
    ∀ {events s s₁ e}, Session s₀ events s →
      s.next = (.error e, s₁) →
      (∀ view : View, view.read s = (.error e, s₁)) ∧
        ∀ {more s'}, Session s₁ more s' →
          s' = s₁ ∧
            ∀ event ∈ more,
              ∃ view, event = .read view (.error e)
  wrongShape :
    ∀ {events s s₁ e t} {view : View}, Session s₀ events s →
      s.next = (.ok t, s₁) →
      view.read s = (.error e, s₁) →
      e = Token.wrongShape view.text t ∧ s₁.failed = none ∧
        ∃ n,
          s₀.resultAt n = .ok t ∧ s₁.next.1 = s₀.resultAt (n + 1)

variable {μ : Type} [TokenMachine μ]

/- Every machine makes a source that takes back. -/
theorem start_takesBack
    (m : μ) :
    (start m).TakesBack where
  results := by
    intro events s h i answer view hKept
    rw [← Nat.zero_add i]
    exact h.kept_results (.ready (.nil _)) hKept
  given_again := Session.given_again
  slot := by
    intro events s h
    rcases h.standsAfter (.ready (.nil _)) with ⟨n, hStands⟩
    exact hStands.held_or_failed
  sticky := by
    intro events s s₁ e _ hNext
    refine ⟨fun view => ?_, fun hMore =>
      hMore.sticky (next_of_error hNext)⟩
    rw [View.read_apply, hNext]
    rfl
  wrongShape := by
    intro events s s₁ e t view h hNext hRead
    rcases h.standsAfter (.ready (.nil _)) with ⟨n, hStands⟩
    have hAfter := hStands.next.result
    have hToken := hStands.result
    rw [View.read_apply, hNext] at hRead
    rw [hNext] at hAfter hToken
    rcases hStands.delivers hNext with ⟨ts, _, hDelivers⟩
    rcases hDelivers.exists_start with ⟨m', rfl⟩
    exact ⟨View.ofToken_error (congrArg Prod.fst hRead), rfl, n,
      hToken.symm, hAfter⟩

end Stream

/-
  A scanner over any bytes, failing or not, and a walk through
  any document take tokens back, at every limit of nesting.
-/
theorem sources_take_back :
    (∀ (bytes : List UInt8) (fault : Option String) (limit : Nat),
      (Scanner.stream bytes fault limit).TakesBack) ∧
    ∀ (j : Json) (limit : Nat),
      (ValueWalk.stream j limit).TakesBack :=
  ⟨fun bytes fault limit =>
      Stream.start_takesBack (Scanner.start bytes fault limit),
    fun j limit =>
      Stream.start_takesBack (ValueWalk.start j limit)⟩

/- The opening mark of a list is given back and read as a key. -/
def nullListEvents : List Event :=
  [.read .value (.ok (.token .arrayOpen)),
   .back .arrayOpen,
   .read .key (.error (Token.wrongShape "object key" .arrayOpen)),
   .read .token (.ok (.token (.literal ⟨.null, "null"⟩)))]

/- The second reading that is kept answers the second token. -/
theorem nullList_takes_back :
    (∃ s,
      Session (ValueWalk.stream (.array [.null]) 1)
        nullListEvents s) ∧
    (kept nullListEvents)[1]? =
      some (.token, .ok (.token (.literal ⟨.null, "null"⟩))) ∧
    .ok (.token (.literal ⟨.null, "null"⟩)) =
      View.ofResult .token
        ((ValueWalk.stream (.array [.null]) 1).resultAt 1) := by
  have hSession :
      ∃ s,
        Session (ValueWalk.stream (.array [.null]) 1)
          nullListEvents s :=
    ⟨_, .back rfl rfl (.read rfl (.read rfl (.nil _)))⟩
  rcases hSession with ⟨s, h⟩
  exact ⟨⟨s, h⟩, rfl,
    (sources_take_back.2 (.array [.null]) 1).results h rfl⟩

end TreeWire
