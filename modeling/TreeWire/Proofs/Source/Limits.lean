import TreeWire.Proofs.Source.Assembly
import TreeWire.Proofs.Source.OpenContainers

/-
  Machines with a limit of nesting, and what happens when the
  limit is raised.

  Such a machine counts the containers that are open, and opens
  one more only below its limit.  A step of the machine with a
  greater limit gives the same result; or the first machine was
  at its limit, and failed for a container that the second one
  opens.  No other error of the machine speaks of a limit.

  Key definitions include:
    * `Cause.BeyondLimit`
    * `Raised`
    * `LimitedMachine`

  Main statements:
    * `Scanner.BuiltStep.raised`
    * `ValueWalk.step_raised`
    * `LimitedMachine.depth_of_delivers`
-/

namespace TreeWire

------------------------------------------------------------
-- Limited Machines
------------------------------------------------------------

/- A container is nested deeper than a limit. -/
def Cause.BeyondLimit
    (limit : Nat)
    (cause : Cause) : Prop :=
  ∃ position, cause = .malformed (depthMessage limit) position

/-
  The result of a step with a limit, and that of the same step
  with a greater one.  `depth` containers are open before it, and
  `raise` sets the greater limit.
-/
inductive Raised
    {μ : Type}
    (raise : μ → μ)
    (limit depth : Nat) :
    Except DecodeError Token × μ →
    Except DecodeError Token × μ → Prop where
  | ok
      {t : Token}
      {m : μ} :
      Raised raise limit depth (.ok t, m) (.ok t, raise m)
  | error
      {e : DecodeError}
      {m m' : μ}
      (hPlain : ∀ l, ¬ e.cause.BeyondLimit l) :
      Raised raise limit depth (.error e, m) (.error e, m')
  | tooDeep
      {t : Token}
      {e : DecodeError}
      {m m' : μ}
      (hCause : e.cause.BeyondLimit limit)
      (hDeep : limit ≤ depth)
      (hOpens : t.opens = true) :
      Raised raise limit depth (.error e, m) (.ok t, m')

/-
  A machine that counts the open containers and keeps them within
  a limit, which can be set.
-/
class LimitedMachine
    (μ : Type)
    [TokenMachine μ] where
  depth : μ → Nat
  limit : μ → Nat
  withLimit : Nat → μ → μ
  depth_withLimit : ∀ l m, depth (withLimit l m) = depth m
  limit_withLimit : ∀ l m, limit (withLimit l m) = l
  withLimit_withLimit :
    ∀ l l' m, withLimit l (withLimit l' m) = withLimit l m
  limit_of_step :
    ∀ {m m' : μ} {t : Token},
      TokenMachine.step m = (.ok t, m') → limit m' = limit m
  depth_of_step :
    ∀ {m m' : μ} {t : Token},
      TokenMachine.step m = (.ok t, m') → depth m' = t.nest (depth m)
  depth_lt :
    ∀ {m m' : μ} {t : Token},
      TokenMachine.step m = (.ok t, m') →
      t.opens = true →
      depth m < limit m
  raised :
    ∀ {m : μ} {l : Nat},
      depth m ≤ limit m →
      limit m < l →
      Raised (withLimit l) (limit m) (depth m)
        (TokenMachine.step m)
        (TokenMachine.step (withLimit l m))

------------------------------------------------------------
-- Depth over Whole Runs
------------------------------------------------------------

theorem Token.length_enclose
    (frames : List Frame)
    (t : Token) :
    (t.enclose frames).length = t.nest frames.length := by
  cases t with
  | objectClose | arrayClose => exact List.length_tail
  | _ => rfl

theorem openContainers_append
    (ts : List Token)
    (t : Token) :
    openContainers (ts ++ [t]) = t.enclose (openContainers ts) := by
  rw [openContainers, List.foldl_append]
  rfl

namespace LimitedMachine

variable {μ : Type} [TokenMachine μ] [LimitedMachine μ]
variable {m m' : μ}

/- A step keeps within the limit. -/
theorem depth_le_of_step
    {t : Token}
    (hDepth : depth m ≤ limit m)
    (h : TokenMachine.step m = (.ok t, m')) :
    depth m' ≤ limit m' := by
  have hLt := depth_lt h
  rw [depth_of_step h, limit_of_step h]
  cases t with
  | objectOpen | arrayOpen => exact hLt rfl
  | objectClose | arrayClose =>
      exact Nat.le_trans (Nat.sub_le _ _) hDepth
  | _ => exact hDepth

/-
  A run from where nothing is open counts the containers that its
  tokens leave open, and keeps within the limit.
-/
theorem depth_of_delivers
    {ts : List Token}
    (hDepth : depth m = 0)
    (h : (Stream.start m).Delivers ts (Stream.start m')) :
    depth m' = (openContainers ts).length ∧
      limit m' = limit m ∧ depth m' ≤ limit m' := by
  induction ts using List.reverseRecOn generalizing m' with
  | nil =>
      cases Stream.Delivers.nil_iff.mp h
      exact ⟨hDepth, rfl, hDepth ▸ Nat.zero_le _⟩
  | append_singleton ts t ih =>
      rcases Stream.Delivers.append_iff.mp h with ⟨s, hBefore, hLast⟩
      rcases hBefore.exists_start with ⟨m₁, rfl⟩
      rcases Stream.next_start_ok_iff.mp
        (Stream.Delivers.singleton_iff.mp hLast) with ⟨_, hStep, hEq⟩
      cases hEq
      rcases ih hBefore with ⟨hCount, hLimit, hWithin⟩
      refine ⟨?_, (limit_of_step hStep).trans hLimit,
        depth_le_of_step hWithin hStep⟩
      rw [depth_of_step hStep, hCount, openContainers_append,
        Token.length_enclose]

end LimitedMachine

------------------------------------------------------------
-- Scanners
------------------------------------------------------------

/- The errors of a lexing speak of no limit. -/
theorem DecodeError.OfLexing.plain
    {e : DecodeError}
    (h : e.OfLexing)
    (limit : Nat) :
    ¬ e.cause.BeyondLimit limit := by
  intro hBeyond
  rcases hBeyond with ⟨_, hEq⟩
  cases h with
  | malformed hMessage _ =>
      exact hMessage limit (Cause.malformed.inj hEq).1
  | unreadable => cases hEq

namespace Scanner

variable {s s' : Scanner}
variable {limit : Nat}

/- A scanner with another limit. -/
def withLimit
    (limit : Nat)
    (s : Scanner) : Scanner :=
  { s with maxDepth := limit }

/-
  What a scanning that opens no container gives: the limit, no
  more open containers than before, and an error that speaks of
  no limit.  A scanner with another limit does the same.
-/
structure Unlimited
    {α : Type}
    (x : Scanning α)
    (s : Scanner)
    (result : Except DecodeError α)
    (s' : Scanner) : Prop where
  same :
    ∀ limit, x (s.withLimit limit) = (result, s'.withLimit limit)
  limit_eq : s'.maxDepth = s.maxDepth
  frames_le : s'.frames.length ≤ s.frames.length
  plain :
    ∀ {e}, result = .error e → ∀ l, ¬ e.cause.BeyondLimit l

theorem Built.unlimited
    {α : Type}
    {x : Scanning α}
    {result : Except DecodeError α}
    (h : Built x)
    (hRun : x s = (result, s')) :
    Unlimited x s result s' := by
  induction h generalizing s s' with
  | pure a =>
      cases hRun
      exact ⟨fun _ => rfl, rfl, Nat.le_refl _, nofun⟩
  | @lex _ x hLex =>
      cases hRun
      refine ⟨fun _ => rfl, rfl, Nat.le_refl _, ?_⟩
      intro e hError
      have hFails : x s.cursor = (.error e, (x s.cursor).2) :=
        Prod.ext hError rfl
      exact (hLex.error hFails).plain
  | turn f hFrames hTurn =>
      rw [hTurn] at hRun
      cases hRun
      exact ⟨fun limit => hTurn (s.withLimit limit), rfl,
        hFrames s.point, nofun⟩
  | @bind _ _ x f hFirst hRest ihFirst ihRest =>
      cases hStep : x s with
      | mk r s₁ =>
          have hx := ihFirst hStep
          cases r with
          | error e =>
              rw [Action.bind_error hStep] at hRun
              cases hRun
              refine ⟨fun limit => Action.bind_error (hx.same limit),
                hx.limit_eq, hx.frames_le, ?_⟩
              intro e' hEq
              cases hEq
              exact hx.plain rfl
          | ok a =>
              rw [Action.bind_ok hStep] at hRun
              have hf := ihRest a hRun
              refine ⟨?_, hf.limit_eq.trans hx.limit_eq,
                Nat.le_trans hf.frames_le hx.frames_le, hf.plain⟩
              intro limit
              rw [Action.bind_ok (hx.same limit)]
              exact hf.same limit

/- At the limit a container is refused that a greater one opens. -/
theorem Opens.raised
    {x : Scanning Token}
    {next : Option UInt8}
    (h : Opens next x)
    (hNext : next = s.cursor.unread.head?)
    (hWithin : s.frames.length ≤ s.maxDepth)
    (hLimit : s.maxDepth < limit) :
    Raised (withLimit limit) s.maxDepth s.frames.length
      (x s) (x (s.withLimit limit)) := by
  rcases h with ⟨b, frame, stage, mark, hHead, hOpens, rfl⟩
  rcases s with ⟨⟨unread, fault, position⟩, frames, stage', maxDepth⟩
  rw [hHead] at hNext
  rcases List.head?_eq_some_iff.mp hNext.symm with ⟨rest, hUnread⟩
  have hUnread' : unread = b :: rest := hUnread
  subst hUnread'
  have hRaised : frames.length < limit :=
    Nat.lt_of_le_of_lt hWithin hLimit
  by_cases hDeep : maxDepth ≤ frames.length
  · rw [Action.bind_error (openContainer_tooDeep frame stage hDeep),
      Action.bind_ok (openContainer_within frame stage hRaised)]
    exact .tooDeep ⟨_, rfl⟩ hDeep hOpens
  · have hBelow := Nat.lt_of_not_le hDeep
    rw [Action.bind_ok (openContainer_within frame stage hBelow),
      Action.bind_ok (openContainer_within frame stage hRaised)]
    exact .ok

/- A scanning before a step keeps what is raised by the step. -/
theorem Unlimited.raised
    {α : Type}
    {x : Scanning α}
    {a : α}
    {out out' : Except DecodeError Token × Scanner}
    (h : Unlimited x s (.ok a) s')
    (hRaised :
      Raised (withLimit limit) s'.maxDepth s'.frames.length out
        out') :
    Raised (withLimit limit) s.maxDepth s.frames.length out out' := by
  rw [h.limit_eq] at hRaised
  cases hRaised with
  | ok => exact .ok
  | error hPlain => exact .error hPlain
  | tooDeep hCause hDeep hOpens =>
      exact .tooDeep hCause (Nat.le_trans hDeep h.frames_le) hOpens

/- A scanning that opens no container gives the same result. -/
theorem Built.raised
    {x : Scanning Token}
    (h : Built x)
    (limit : Nat)
    (s : Scanner) :
    Raised (withLimit limit) s.maxDepth s.frames.length
      (x s) (x (s.withLimit limit)) := by
  cases hRun : x s with
  | mk result s' =>
      have hUnlimited := h.unlimited hRun
      rw [hUnlimited.same limit]
      cases result with
      | ok t => exact .ok
      | error e => exact .error (hUnlimited.plain rfl)

/- The induction is on how the step is put together. -/
theorem BuiltStep.raised
    {x : Scanning Token}
    (h : BuiltStep x)
    (hWithin : s.frames.length ≤ s.maxDepth)
    (hLimit : s.maxDepth < limit) :
    Raised (withLimit limit) s.maxDepth s.frames.length
      (x s) (x (s.withLimit limit)) := by
  -- What follows a first part that opens no container.
  have hBind :
      ∀ {α : Type} {y : Scanning α} {f : α → Scanning Token}
        {s : Scanner},
        Built y →
        (∀ a s₁, y s = (.ok a, s₁) → Unlimited y s (.ok a) s₁ →
          Raised (withLimit limit) s₁.maxDepth s₁.frames.length
            (f a s₁) (f a (s₁.withLimit limit))) →
        Raised (withLimit limit) s.maxDepth s.frames.length
          ((y >>= f) s) ((y >>= f) (s.withLimit limit)) := by
    intro α y f s hFirst hRest
    cases hRun : y s with
    | mk result s₁ =>
        have hUnlimited := hFirst.unlimited hRun
        cases result with
        | ok a =>
            rw [Action.bind_ok hRun,
              Action.bind_ok (hUnlimited.same limit)]
            exact hUnlimited.raised (hRest a s₁ hRun hUnlimited)
        | error e =>
            rw [Action.bind_error hRun,
              Action.bind_error (hUnlimited.same limit)]
            exact .error (hUnlimited.plain rfl)
  induction h generalizing s with
  | closed hBuilt => exact hBuilt.raised limit s
  | look hRest =>
      refine hBind (.lex .peek) fun next s₁ hRun hUnlimited => ?_
      rcases hRest next with hBuilt | hOpens
      · exact hBuilt.raised limit s₁
      · rcases lex_eq_ok_iff.mp hRun with ⟨c, hPeek, rfl⟩
        rcases Cursor.peek_eq_ok_iff.mp hPeek with ⟨rfl, hNext, _⟩
        exact hOpens.raised hNext hWithin hLimit
  | bind hFirst hRest ih =>
      refine hBind hFirst fun a s₁ _ hUnlimited => ih a ?_ ?_
      · rw [hUnlimited.limit_eq]
        exact Nat.le_trans hUnlimited.frames_le hWithin
      · rw [hUnlimited.limit_eq]
        exact hLimit
  | @byStage f hRest hStage ih =>
      change Raised _ _ _ (f s s)
        (f (s.withLimit limit) (s.withLimit limit))
      have hSame : f (s.withLimit limit) = f s := hStage rfl
      rw [hSame]
      exact ih s hWithin hLimit

/- What a token does to the open containers and their limit. -/
theorem step_frames
    {t : Token}
    (h : token s = (.ok t, s')) :
    s'.maxDepth = s.maxDepth ∧
      s'.frames.length = t.nest s.frames.length ∧
      (t.opens = true → s.frames.length < s.maxDepth) := by
  rcases token_sound h with
    ⟨_, p, _, hAdvance, hMoved, hDepth⟩ |
    ⟨rfl, _, _, _, _, _, _, hMoved⟩
  · rw [hMoved]
    exact ⟨rfl, hAdvance.frames_length, hDepth⟩
  · rw [hMoved]
    exact ⟨rfl, rfl, nofun⟩

instance : LimitedMachine Scanner where
  depth := fun s => s.frames.length
  limit := Scanner.maxDepth
  withLimit := withLimit
  depth_withLimit := fun _ _ => rfl
  limit_withLimit := fun _ _ => rfl
  withLimit_withLimit := fun _ _ _ => rfl
  limit_of_step := fun h => (step_frames h).1
  depth_of_step := fun h => (step_frames h).2.1
  depth_lt := fun h => (step_frames h).2.2
  raised := builtStep_token.raised

end Scanner

------------------------------------------------------------
-- Walks
------------------------------------------------------------

namespace ValueWalk

variable {w w' : ValueWalk}

/- A walk with another limit. -/
def withLimit
    (limit : Nat)
    (w : ValueWalk) : ValueWalk :=
  { w with maxDepth := limit }

/- What a token does to the depth and its limit. -/
theorem step_depth
    {t : Token}
    (h : step w = (.ok t, w')) :
    w'.maxDepth = w.maxDepth ∧ w'.depth = t.nest w.depth ∧
      (t.opens = true → w.depth < w.maxDepth) := by
  by_cases hStack : w.stack = []
  · rw [step_of_nil hStack] at h
    cases h
    exact ⟨rfl, rfl, nofun⟩
  · have hEnters := step_enters hStack
    rw [h] at hEnters
    cases hEnters with
    | ok _ _ hDepth hLimit hWithin =>
        exact ⟨hLimit, hDepth, fun hOpens =>
          Nat.lt_of_not_le fun hDeep => hWithin ⟨hOpens, hDeep⟩⟩

/- A container that is refused at the limit opens below it. -/
theorem enter_raised
    {limit : Nat}
    (below : List WalkStep)
    (j : Json)
    (hWithin : w.depth ≤ w.maxDepth)
    (hLimit : w.maxDepth < limit) :
    Raised (withLimit limit) w.maxDepth w.depth
      (enter w below j) (enter (w.withLimit limit) below j) := by
  have hRaised :
      ¬ (w.withLimit limit).maxDepth ≤ (w.withLimit limit).depth :=
    Nat.not_le_of_lt (Nat.lt_of_le_of_lt hWithin hLimit)
  cases j with
  | literal lit => exact .ok
  | array items | object members =>
      rw [enter, enter, if_neg hRaised]
      by_cases hDeep : w.maxDepth ≤ w.depth
      · rw [if_pos hDeep]
        exact .tooDeep ⟨none, rfl⟩ hDeep rfl
      · rw [if_neg hDeep]
        exact .ok

theorem step_raised
    {limit : Nat}
    (hWithin : w.depth ≤ w.maxDepth)
    (hLimit : w.maxDepth < limit) :
    Raised (withLimit limit) w.maxDepth w.depth
      (step w) (step (w.withLimit limit)) := by
  rcases w with ⟨stack, depth, maxDepth⟩
  rcases stack with _ | ⟨entry, below⟩
  · exact .ok
  · cases entry with
    | value j => exact enter_raised below j hWithin hLimit
    | members rest => cases rest <;> exact .ok
    | elements rest =>
        cases rest with
        | nil => exact .ok
        | cons j rest => exact enter_raised _ j hWithin hLimit

instance : LimitedMachine ValueWalk where
  depth := ValueWalk.depth
  limit := ValueWalk.maxDepth
  withLimit := withLimit
  depth_withLimit := fun _ _ => rfl
  limit_withLimit := fun _ _ => rfl
  withLimit_withLimit := fun _ _ _ => rfl
  limit_of_step := fun h => (step_depth h).1
  depth_of_step := fun h => (step_depth h).2.1
  depth_lt := fun h => (step_depth h).2.2
  raised := step_raised

end ValueWalk

end TreeWire
