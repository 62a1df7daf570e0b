import TreeWire.Proofs.Node.Simulation

/-
  Two runs of which one may stop early.

  `Early Rel Stops` says that two results are the same and leave
  related states, or that the second run has stopped with an
  error of a certain kind, whatever became of the first one.

  Machines whose steps go together in this way make streams that
  do.  Whatever tokens the second stream delivers are delivered
  by the first, and decoding gives the same result or stops.

  Key definitions include:
    * `Early`
    * `Stream.Beside`
    * `Simulation.ofSteps`

  Main statements:
    * `Early.bind`
    * `Stream.Beside.delivers`
    * `decodeDocument_early`
-/

namespace TreeWire

------------------------------------------------------------
-- Stopping Early
------------------------------------------------------------

/-
  The same result in related states, or an error with which the
  second run may stop.
-/
inductive Early
    {σ τ α : Type}
    (Rel : σ → τ → Prop)
    (Stops : Cause → Prop) :
    Except DecodeError α × σ →
    Except DecodeError α × τ → Prop where
  | ok
      {a : α}
      {s : σ}
      {s' : τ}
      (hStates : Rel s s') :
      Early Rel Stops (.ok a, s) (.ok a, s')
  | error
      {e : DecodeError}
      {s : σ}
      {s' : τ} :
      Early Rel Stops (.error e, s) (.error e, s')
  | stop
      {out : Except DecodeError α × σ}
      {e : DecodeError}
      {s' : τ}
      (hStops : Stops e.cause) :
      Early Rel Stops out (.error e, s')

namespace Early

variable {σ τ α β : Type}
variable {Rel : σ → τ → Prop}
variable {Stops : Cause → Prop}

/- What follows two runs goes on from related states. -/
theorem bind
    {x : ExceptT DecodeError (StateM σ) α}
    {y : ExceptT DecodeError (StateM τ) α}
    {f : α → ExceptT DecodeError (StateM σ) β}
    {g : α → ExceptT DecodeError (StateM τ) β}
    {s : σ}
    {s' : τ}
    (h : Early Rel Stops (x s) (y s'))
    (hRest :
      ∀ a s₁ s₁', Rel s₁ s₁' →
        Early Rel Stops (f a s₁) (g a s₁')) :
    Early Rel Stops ((x >>= f) s) ((y >>= g) s') := by
  generalize hx : x s = out at h
  generalize hy : y s' = out' at h
  cases h with
  | ok hStates =>
      rw [Action.bind_ok hx, Action.bind_ok hy]
      exact hRest _ _ _ hStates
  | error =>
      rw [Action.bind_error hx, Action.bind_error hy]
      exact .error
  | stop hStops =>
      rw [Action.bind_error hy]
      exact .stop hStops

end Early

------------------------------------------------------------
-- Streams Side by Side
------------------------------------------------------------

namespace Stream

variable {μ ν : Type}
variable {Rel : μ → ν → Prop}

/- Two streams with related machines that hold the same token. -/
structure Beside
    (Rel : μ → ν → Prop)
    (s : Stream μ)
    (s' : Stream ν) : Prop where
  machines : Rel s.machine s'.machine
  held : s.held = s'.held
  running : s.failed = none
  running' : s'.failed = none

namespace Beside

theorem start
    {m : μ}
    {m' : ν}
    (h : Rel m m') :
    Beside Rel (start m) (start m') :=
  ⟨h, rfl, rfl, rfl⟩

theorem hold
    {s : Stream μ}
    {s' : Stream ν}
    (h : Beside Rel s s')
    (t : Token) :
    Beside Rel (s.hold t) (s'.hold t) :=
  ⟨h.machines, rfl, h.running, h.running'⟩

variable [TokenMachine μ] [TokenMachine ν]
variable {Stops : Cause → Prop}

/- The steps of two machines decide how their streams go on. -/
theorem next
    (hStep :
      ∀ {m m'}, Rel m m' →
        Early Rel Stops (TokenMachine.step m) (TokenMachine.step m'))
    {s : Stream μ}
    {s' : Stream ν}
    (h : Beside Rel s s') :
    Early (Beside Rel) Stops s.next s'.next := by
  rcases s with ⟨m, held, failed⟩
  rcases s' with ⟨m', held', failed'⟩
  rcases h with ⟨hMachines, rfl, rfl, rfl⟩
  cases held with
  | some t => exact .ok ⟨hMachines, rfl, rfl, rfl⟩
  | none =>
      have hEarly := hStep hMachines
      generalize hRun : TokenMachine.step m = out at hEarly
      generalize hRun' : TokenMachine.step m' = out' at hEarly
      change Early (Beside Rel) Stops (Stream.start m).next
        (Stream.start m').next
      cases hEarly with
      | ok hStates =>
          rw [next_start_ok_iff.mpr ⟨_, hRun, rfl⟩,
            next_start_ok_iff.mpr ⟨_, hRun', rfl⟩]
          exact .ok (.start hStates)
      | error =>
          rw [next_start_error hRun, next_start_error hRun']
          exact .error
      | stop hStops =>
          rw [next_start_error hRun']
          exact .stop hStops

/- Tokens of the second stream are delivered by the first. -/
theorem delivers
    (hStep :
      ∀ {m m'}, Rel m m' →
        Early Rel Stops (TokenMachine.step m) (TokenMachine.step m'))
    {s : Stream μ}
    {s' s₁' : Stream ν}
    {ts : List Token}
    (h : Beside Rel s s')
    (hDelivers : s'.Delivers ts s₁') :
    ∃ s₁, s.Delivers ts s₁ ∧ Beside Rel s₁ s₁' := by
  induction hDelivers generalizing s with
  | nil => exact ⟨s, .nil s, h⟩
  | cons hNext' _ ih =>
      have hEarly := h.next hStep
      rw [hNext'] at hEarly
      generalize hNext : s.next = out at hEarly
      cases hEarly with
      | ok hBeside =>
          rcases ih hBeside with ⟨s₁, hRest, hLast⟩
          exact ⟨s₁, .cons hNext hRest, hLast⟩

end Beside

end Stream

------------------------------------------------------------
-- Decoding Side by Side
------------------------------------------------------------

section

variable {μ ν : Type} [TokenMachine μ] [TokenMachine ν]
variable {Rel : μ → ν → Prop}
variable {Stops : Cause → Prop}

/- Machines that go together, as sources of tokens. -/
def Simulation.ofSteps
    (Rel : μ → ν → Prop)
    (Stops : Cause → Prop)
    (hStep :
      ∀ {m m'}, Rel m m' →
        Early Rel Stops (TokenMachine.step m)
          (TokenMachine.step m')) :
    Simulation μ ν where
  Rel := Stream.Beside Rel
  Errors := Eq
  Stops := fun e => Stops e.cause
  errors_refl := fun _ => rfl
  errors_hop := errors_hop_eq
  stops_hop := fun _ h => h
  next := by
    intro s s' h
    have hEarly := h.next hStep
    generalize hNext : s.next = out at hEarly
    generalize hNext' : s'.next = out' at hEarly
    cases hEarly with
    | ok hBeside =>
        exact .inl ⟨_, _, _, _, rfl, rfl, .refl _, hBeside,
          hBeside.hold _⟩
    | error => exact .inr (.inl ⟨_, _, _, _, rfl, rfl, rfl⟩)
    | stop hStops => exact .inr (.inr ⟨_, _, rfl, hStops⟩)

/-
  Decoding gives the same result on both streams, or stops on the
  second one.
-/
theorem decodeDocument_early
    [LawfulMachine μ]
    [LawfulMachine ν]
    (hStep :
      ∀ {m m'}, Rel m m' →
        Early Rel Stops (TokenMachine.step m) (TokenMachine.step m'))
    {m : μ}
    {m' : ν}
    (shape : Shape)
    (h : Rel m m') :
    (decodeDocument shape (Stream.start m)).1 =
        (decodeDocument shape (Stream.start m')).1 ∨
      ∃ e,
        (decodeDocument shape (Stream.start m')).1 = .error e ∧
          Stops e.cause := by
  have hOutcome :=
    (Simulation.ofSteps Rel Stops hStep).decodeDocument shape
      (Stream.Beside.start h)
  generalize decodeDocument shape (Stream.start m) = out at hOutcome
  generalize decodeDocument shape (Stream.start m') = out' at hOutcome
  cases hOutcome with
  | ok hValues =>
      cases hValues
      exact .inl rfl
  | error hErrors =>
      cases hErrors
      exact .inl rfl
  | stop hStops => exact .inr ⟨_, rfl, hStops⟩

end

end TreeWire
