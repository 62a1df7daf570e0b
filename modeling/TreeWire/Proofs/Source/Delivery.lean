import TreeWire.Node.Decoder
import TreeWire.Proofs.Action
import TreeWire.Source.TokenList

/-
  What a stream delivers, and how the small readings of a
  decoder answer to it.

  `Stream.Delivers s tokens s'` says that the next readings of
  `s` give `tokens` one by one and leave `s'`.  A token that is
  held back comes again, so a look ahead does not change what
  a stream delivers.

  A machine is lawful when each token but `eof` takes something
  off its bound.  `Stream.left` is the bound of a stream that
  does not count an `eof` held back.

  Main statements:
    * `Stream.advances_of_next`
    * `Stream.Delivers.append_iff`
    * `Stream.Delivers.hold`
    * `Stream.Delivers.tokens_unique`
    * `Stream.left_next`
    * `Stream.Delivers.length_le_left`
-/

namespace TreeWire

------------------------------------------------------------
-- Lawful Machines
------------------------------------------------------------

/-
  A machine whose bound is right: every token but `eof` takes
  something off it, and `eof` adds nothing.
-/
class LawfulMachine
    (μ : Type)
    [TokenMachine μ] : Prop where
  bound_lt :
    ∀ {m m' : μ} {t : Token},
      TokenMachine.step m = (.ok t, m') →
      t ≠ .eof →
      TokenMachine.bound m' < TokenMachine.bound m
  bound_le :
    ∀ {m m' : μ},
      TokenMachine.step m = (.ok .eof, m') →
      TokenMachine.bound m' ≤ TokenMachine.bound m

namespace Stream

variable {μ : Type} [TokenMachine μ]

------------------------------------------------------------
-- One Reading
------------------------------------------------------------

/-
  What one reading can do: give the held token, give the failure
  that stopped the stream, or step the machine, which delivers a
  token or stops the stream.
-/
inductive Advances
    (s : Stream μ) : Except DecodeError Token → Stream μ → Prop where
  | held
      {t : Token}
      (hHeld : s.held = some t) :
      Advances s (.ok t) { s with held := none }
  | stopped
      {e : DecodeError}
      (hHeld : s.held = none)
      (hFailed : s.failed = some e) :
      Advances s (.error e) s
  | token
      {t : Token}
      {m : μ}
      (hHeld : s.held = none)
      (hFailed : s.failed = none)
      (hStep : TokenMachine.step s.machine = (.ok t, m)) :
      Advances s (.ok t) { s with machine := m }
  | failure
      {e : DecodeError}
      {m : μ}
      (hHeld : s.held = none)
      (hFailed : s.failed = none)
      (hStep : TokenMachine.step s.machine = (.error e, m)) :
      Advances s (.error e) ⟨m, none, some e⟩

theorem advances_of_next
    {s s₁ : Stream μ}
    {r : Except DecodeError Token}
    (h : s.next = (r, s₁)) :
    s.Advances r s₁ := by
  unfold next at h
  split at h
  · rename_i hHeld
    cases h
    exact .held hHeld
  · rename_i hHeld
    split at h
    · rename_i hFailed
      cases h
      exact .stopped hHeld hFailed
    · rename_i hFailed
      split at h
      · rename_i hStep
        cases h
        exact .token hHeld hFailed hStep
      · rename_i hStep
        cases h
        exact .failure hHeld hFailed hStep

/- Each of these is what the reading does. -/
theorem Advances.next_eq
    {s s₁ : Stream μ}
    {r : Except DecodeError Token}
    (h : s.Advances r s₁) :
    s.next = (r, s₁) := by
  cases h with
  | held hHeld => simp only [next, hHeld]
  | stopped hHeld hFailed => simp only [next, hHeld, hFailed]
  | token hHeld hFailed hStep =>
      simp only [next, hHeld, hFailed, hStep]
  | failure hHeld hFailed hStep =>
      simp only [next, hHeld, hFailed, hStep]

------------------------------------------------------------
-- The Slot
------------------------------------------------------------

/- Reading a token empties the slot. -/
theorem held_of_next
    {s s₁ : Stream μ}
    {r : Except DecodeError Token}
    (h : s.next = (r, s₁)) :
    s₁.held = none := by
  cases advances_of_next h with
  | held => rfl
  | stopped hHeld => exact hHeld
  | token hHeld => exact hHeld
  | failure => rfl

/- A token held back in an empty slot comes next. -/
theorem next_hold
    {s : Stream μ}
    (t : Token)
    (hHeld : s.held = none) :
    (s.hold t).next = (.ok t, s) := by
  cases s with
  | mk machine held failed =>
      simp only at hHeld
      subst hHeld
      rfl

/- The token just read comes again when it is held back. -/
theorem next_hold_of_next
    {s s₁ : Stream μ}
    {r : Except DecodeError Token}
    (t : Token)
    (h : s.next = (r, s₁)) :
    (s₁.hold t).next = (.ok t, s₁) :=
  next_hold t (held_of_next h)

------------------------------------------------------------
-- Streams with an Empty Slot
------------------------------------------------------------

/- A stream that holds nothing and has not failed steps on. -/
theorem next_start_ok_iff
    {m : μ}
    {t : Token}
    {s' : Stream μ} :
    (start m).next = (.ok t, s') ↔
      ∃ m', TokenMachine.step m = (.ok t, m') ∧ s' = start m' := by
  constructor
  · intro h
    cases advances_of_next h with
    | held hHeld => cases hHeld
    | token _ _ hStep => exact ⟨_, hStep, rfl⟩
  · intro hParts
    rcases hParts with ⟨m', hStep, rfl⟩
    exact (Advances.token rfl rfl hStep).next_eq

/- The failure of a machine stops its stream for good. -/
theorem next_start_error
    {m m' : μ}
    {e : DecodeError}
    (h : TokenMachine.step m = (.error e, m')) :
    (start m).next = (.error e, ⟨m', none, some e⟩) :=
  (Advances.failure rfl rfl h).next_eq

theorem step_of_next_start_error
    {m : μ}
    {e : DecodeError}
    {s' : Stream μ}
    (h : (start m).next = (.error e, s')) :
    ∃ m', TokenMachine.step m = (.error e, m') := by
  cases advances_of_next h with
  | stopped _ hFailed => cases hFailed
  | failure _ _ hStep => exact ⟨_, hStep⟩

------------------------------------------------------------
-- Delivered Tokens
------------------------------------------------------------

/- The next readings of a stream give tokens one by one. -/
inductive Delivers : Stream μ → List Token → Stream μ → Prop where
  | nil
      (s : Stream μ) :
      Delivers s [] s
  | cons
      {s s₁ s' : Stream μ}
      {t : Token}
      {ts : List Token}
      (hNext : s.next = (.ok t, s₁))
      (hRest : Delivers s₁ ts s') :
      Delivers s (t :: ts) s'

namespace Delivers

theorem cons_iff
    {s s' : Stream μ}
    {t : Token}
    {ts : List Token} :
    Delivers s (t :: ts) s' ↔
      ∃ s₁, s.next = (.ok t, s₁) ∧ Delivers s₁ ts s' := by
  constructor
  · intro h
    cases h with
    | cons hNext hRest => exact ⟨_, hNext, hRest⟩
  · intro hParts
    rcases hParts with ⟨s₁, hNext, hRest⟩
    exact .cons hNext hRest

theorem nil_iff
    {s s' : Stream μ} :
    Delivers s [] s' ↔ s' = s := by
  constructor
  · intro h
    cases h
    rfl
  · intro hEq
    subst hEq
    exact .nil s'

theorem singleton_iff
    {s s' : Stream μ}
    {t : Token} :
    Delivers s [t] s' ↔ s.next = (.ok t, s') := by
  simp [cons_iff, nil_iff]

theorem append_iff
    {s s' : Stream μ}
    {ts us : List Token} :
    Delivers s (ts ++ us) s' ↔
      ∃ s₁, Delivers s ts s₁ ∧ Delivers s₁ us s' := by
  induction ts generalizing s with
  | nil => simp [nil_iff]
  | cons t ts ih =>
      simp only [List.cons_append, cons_iff, ih]
      constructor
      · intro hParts
        rcases hParts with ⟨s₁, hNext, s₂, hRest, hEnd⟩
        exact ⟨s₂, ⟨s₁, hNext, hRest⟩, hEnd⟩
      · intro hParts
        rcases hParts with ⟨s₂, ⟨s₁, hNext, hRest⟩, hEnd⟩
        exact ⟨s₁, hNext, s₂, hRest, hEnd⟩

/- Tokens lead to one state only. -/
theorem unique
    {s s₁ s₂ : Stream μ}
    {ts : List Token}
    (h₁ : Delivers s ts s₁)
    (h₂ : Delivers s ts s₂) :
    s₁ = s₂ := by
  induction h₁ with
  | nil s => exact (nil_iff.mp h₂).symm
  | cons hNext _ ih =>
      rcases cons_iff.mp h₂ with ⟨s₃, hNext', hRest⟩
      rw [hNext] at hNext'
      cases hNext'
      exact ih hRest

/- A stream that nothing is given back to stays without a slot. -/
theorem exists_start
    {m : μ}
    {s : Stream μ}
    {ts : List Token}
    (h : Delivers (start m) ts s) :
    ∃ m', s = start m' := by
  induction ts generalizing m with
  | nil => exact ⟨m, nil_iff.mp h⟩
  | cons t ts ih =>
      rcases cons_iff.mp h with ⟨s₁, hNext, hRest⟩
      rcases next_start_ok_iff.mp hNext with ⟨m₁, _, rfl⟩
      exact ih hRest

/- What leads back to the same state can be had any time. -/
theorem replicate
    {s : Stream μ}
    {t : Token}
    (h : s.next = (.ok t, s))
    (n : Nat) :
    Delivers s (List.replicate n t) s := by
  induction n with
  | zero => exact .nil s
  | succ n ih => exact .cons h ih

/- A look ahead does not change what a stream delivers. -/
theorem hold
    {s s₁ s' : Stream μ}
    {t : Token}
    {ts : List Token}
    (hNext : s.next = (.ok t, s₁))
    (hRest : Delivers s₁ ts s') :
    Delivers (s₁.hold t) (t :: ts) s' :=
  .cons (next_hold_of_next t hNext) hRest

/- What is delivered before the first `eof` is one list. -/
theorem tokens_unique
    {s s₁ s₂ : Stream μ}
    {ts us : List Token}
    (hTokens : .eof ∉ ts)
    (hOthers : .eof ∉ us)
    (h₁ : Delivers s (ts ++ [.eof]) s₁)
    (h₂ : Delivers s (us ++ [.eof]) s₂) :
    ts = us := by
  induction ts generalizing s us with
  | nil =>
      have hEof := singleton_iff.mp h₁
      cases us with
      | nil => rfl
      | cons u us =>
          rcases cons_iff.mp h₂ with ⟨_, hNext, _⟩
          rw [hEof] at hNext
          cases hNext
          exact absurd List.mem_cons_self hOthers
  | cons t ts ih =>
      rcases cons_iff.mp h₁ with ⟨s₃, hNext, hRest⟩
      cases us with
      | nil =>
          rw [singleton_iff.mp h₂] at hNext
          cases hNext
          exact absurd List.mem_cons_self hTokens
      | cons u us =>
          rcases cons_iff.mp h₂ with ⟨s₄, hNext', hRest'⟩
          rw [hNext] at hNext'
          cases hNext'
          have hSame := ih
            (fun hMem => hTokens (List.mem_cons_of_mem t hMem))
            (fun hMem => hOthers (List.mem_cons_of_mem t hMem))
            hRest hRest'
          rw [hSame]

end Delivers

------------------------------------------------------------
-- What Is Left
------------------------------------------------------------

/- The weight of a token in the slot. -/
def heldWeight : Option Token → Nat
  | none => 0
  | some .eof => 0
  | some _ => 1

/-
  A number of tokens before the end that a stream does not
  exceed.
-/
def left
    (s : Stream μ) : Nat :=
  TokenMachine.bound s.machine + heldWeight s.held

theorem heldWeight_le_one
    (held : Option Token) :
    heldWeight held ≤ 1 := by
  unfold heldWeight
  split <;> omega

theorem left_le_bound
    (s : Stream μ) :
    s.left ≤ s.bound := by
  unfold left bound
  cases hHeld : s.held with
  | none => simp [heldWeight]
  | some t =>
      have := heldWeight_le_one (some t)
      simp only [Option.isSome_some, if_true]
      omega

theorem heldWeight_some
    {t : Token}
    (hEof : t ≠ .eof) :
    heldWeight (some t) = 1 := by
  cases t with
  | eof => exact absurd rfl hEof
  | _ => rfl

variable [LawfulMachine μ]

/- Every token but `eof` takes something off what is left. -/
theorem left_next
    {s s₁ : Stream μ}
    {t : Token}
    (h : s.next = (.ok t, s₁)) :
    s₁.left + heldWeight (some t) ≤ s.left := by
  cases advances_of_next h with
  | held hHeld => simp [left, hHeld, heldWeight]
  | token hHeld _ hStep =>
      by_cases hEof : t = .eof
      · subst hEof
        have := LawfulMachine.bound_le hStep
        simpa [left, hHeld, heldWeight] using this
      · have := LawfulMachine.bound_lt hStep hEof
        simp only [left, hHeld, heldWeight_some hEof]
        simp only [heldWeight]
        omega

theorem left_next_le
    {s s₁ : Stream μ}
    {t : Token}
    (h : s.next = (.ok t, s₁)) :
    s₁.left ≤ s.left := by
  have := left_next h
  omega

theorem left_next_lt
    {s s₁ : Stream μ}
    {t : Token}
    (h : s.next = (.ok t, s₁))
    (hEof : t ≠ .eof) :
    s₁.left < s.left := by
  have := left_next h
  rw [heldWeight_some hEof] at this
  omega

/- Holding back the token just read restores what was left. -/
theorem left_hold_le
    {s s₁ : Stream μ}
    {t : Token}
    (h : s.next = (.ok t, s₁)) :
    (s₁.hold t).left ≤ s.left := by
  have hLeft := left_next h
  have hHeld := held_of_next h
  simp only [left, hHeld] at hLeft
  simpa [left, Stream.hold, heldWeight] using hLeft

/- What is left is at least what a stream delivers. -/
theorem Delivers.length_le_left
    {s s' : Stream μ}
    {ts : List Token}
    (h : Delivers s ts s')
    (hEof : .eof ∉ ts) :
    ts.length + s'.left ≤ s.left := by
  induction h with
  | nil s => simp
  | cons hNext _ ih =>
      rw [List.mem_cons, not_or] at hEof
      have hLt := left_next_lt hNext (Ne.symm hEof.1)
      have hRest := ih hEof.2
      simp only [List.length_cons]
      omega

end Stream

------------------------------------------------------------
-- Token Lists
------------------------------------------------------------

namespace TokenList

instance : LawfulMachine TokenList where
  bound_lt := by
    rintro ⟨_ | ⟨t, rest⟩⟩ m' t' h hEof
    · cases h
      exact absurd rfl hEof
    · cases h
      exact Nat.lt_succ_self rest.length
  bound_le := by
    rintro ⟨_ | ⟨t, rest⟩⟩ m' h
    · cases h
      exact Nat.le_refl _
    · cases h
      exact Nat.le_succ rest.length

/- A list delivers its tokens and leaves those behind them. -/
theorem stream_delivers
    (tokens rest : List Token) :
    (stream (tokens ++ rest)).Delivers tokens (stream rest) := by
  induction tokens with
  | nil => exact .nil _
  | cons t tokens ih => exact .cons rfl ih

end TokenList

end TreeWire
