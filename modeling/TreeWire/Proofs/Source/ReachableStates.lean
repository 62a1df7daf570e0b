import TreeWire.Proofs.Source.Results

/-
  The states of a stream that calls can lead to.

  A call takes the next token or gives some token back.  Calls
  may come in any order, and any token may be given back, so the
  sessions of a source are among them.

  What holds of a machine at its start and after each step that
  succeeds holds in every state in which the stream has not
  failed.  What a failing step makes of the machine stays as it
  is.

  Key definitions include:
    * `Stream.Reaches`
    * `Stream.Stands`

  Main statements:
    * `Stream.Reaches.stands`
    * `Stream.Reaches.stands_of_error`
-/

namespace TreeWire

namespace Stream

variable {μ : Type} [TokenMachine μ]
variable {s s₁ s' : Stream μ}

------------------------------------------------------------
-- Reachable States
------------------------------------------------------------

/- Calls lead from a stream to a state. -/
inductive Reaches
    (s : Stream μ) : Stream μ → Prop where
  | start :
      Reaches s s
  | next
      {s₁ : Stream μ}
      (h : Reaches s s₁) :
      Reaches s s₁.next.2
  | hold
      {s₁ : Stream μ}
      (t : Token)
      (h : Reaches s s₁) :
      Reaches s (s₁.hold t)

/-
  What holds of the machine of a stream: one property while the
  stream has not failed, and another one for each failure.
-/
def Stands
    (Going : μ → Prop)
    (Failed : DecodeError → μ → Prop)
    (s : Stream μ) : Prop :=
  match s.failed with
  | none => Going s.machine
  | some e => Failed e s.machine

variable {Going : μ → Prop}
variable {Failed : DecodeError → μ → Prop}

omit [TokenMachine μ] in
theorem Stands.going
    (h : s.Stands Going Failed)
    (hFailed : s.failed = none) :
    Going s.machine := by
  rwa [Stands, hFailed] at h

omit [TokenMachine μ] in
theorem Stands.failed
    {e : DecodeError}
    (h : s.Stands Going Failed)
    (hFailed : s.failed = some e) :
    Failed e s.machine := by
  rwa [Stands, hFailed] at h

/- A reading keeps what each step of the machine keeps. -/
theorem Stands.next
    (hOk :
      ∀ {m m' : μ} {t : Token},
        Going m → TokenMachine.step m = (.ok t, m') → Going m')
    (hError :
      ∀ {m m' : μ} {e : DecodeError},
        Going m → TokenMachine.step m = (.error e, m') →
        Failed e m')
    (h : s.Stands Going Failed) :
    s.next.2.Stands Going Failed := by
  rcases hNext : s.next with ⟨r, s'⟩
  cases advances_of_next hNext with
  | held => exact h
  | stopped => exact h
  | token _ hFailed hStep =>
      have hGoing := hOk (h.going hFailed) hStep
      simpa only [Stands, hFailed] using hGoing
  | failure _ hFailed hStep => exact hError (h.going hFailed) hStep

/-
  The induction over calls: what holds at the start and is kept
  by each step of the machine holds in every reachable state.
-/
theorem Reaches.stands
    (hOk :
      ∀ {m m' : μ} {t : Token},
        Going m → TokenMachine.step m = (.ok t, m') → Going m')
    (hError :
      ∀ {m m' : μ} {e : DecodeError},
        Going m → TokenMachine.step m = (.error e, m') →
        Failed e m')
    (hStart : s.Stands Going Failed)
    (h : s.Reaches s₁) :
    s₁.Stands Going Failed := by
  induction h with
  | start => exact hStart
  | next _ ih => exact ih.next hOk hError
  | hold t _ ih => exact ih

/- A stream whose reading failed has the failure in its state. -/
theorem Stands.error
    {e : DecodeError}
    (h : s₁.Stands Going Failed)
    (hNext : s.next = (.error e, s₁)) :
    Failed e s₁.machine :=
  h.failed (failed_of_error hNext)

end Stream

end TreeWire
