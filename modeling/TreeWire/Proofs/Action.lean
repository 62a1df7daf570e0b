/-
  Computations with a state that can fail, run on a state.

  Readings of tokens, lexings of bytes and scannings of a text
  are all of this kind.  The lemmas open one step of such a
  computation, so that no proof has to look at how it is
  built.

  Main statements:
    * `Action.bind_apply`
    * `Action.bind_eq_ok_iff`
    * `Action.bind_eq_error_iff`
    * `Action.except_bind_eq_ok_iff`
-/

namespace TreeWire

namespace Action

variable {ε σ α β : Type}

------------------------------------------------------------
-- Running One Step
------------------------------------------------------------

/- A sequence runs its second part where the first succeeds. -/
theorem bind_apply
    (x : ExceptT ε (StateM σ) α)
    (f : α → ExceptT ε (StateM σ) β)
    (s : σ) :
    (x >>= f) s =
      match x s with
      | (.ok a, s') => f a s'
      | (.error e, s') => (.error e, s') := by
  change (match x s with
    | (r, s') => ExceptT.bindCont f r s') = _
  rcases x s with ⟨_ | _, _⟩ <;> rfl

theorem bind_ok
    {x : ExceptT ε (StateM σ) α}
    {f : α → ExceptT ε (StateM σ) β}
    {s s' : σ}
    {a : α}
    (h : x s = (.ok a, s')) :
    (x >>= f) s = f a s' := by
  rw [bind_apply, h]

theorem bind_error
    {x : ExceptT ε (StateM σ) α}
    {f : α → ExceptT ε (StateM σ) β}
    {s s' : σ}
    {e : ε}
    (h : x s = (.error e, s')) :
    (x >>= f) s = (.error e, s') := by
  rw [bind_apply, h]

@[simp] theorem pure_apply
    (a : α)
    (s : σ) :
    (pure a : ExceptT ε (StateM σ) α) s = (.ok a, s) :=
  rfl

@[simp] theorem throw_apply
    (e : ε)
    (s : σ) :
    (throw e : ExceptT ε (StateM σ) α) s = (.error e, s) :=
  rfl

/- A sequence succeeds exactly when both of its parts do. -/
theorem bind_eq_ok_iff
    {x : ExceptT ε (StateM σ) α}
    {f : α → ExceptT ε (StateM σ) β}
    {s s'' : σ}
    {b : β} :
    (x >>= f) s = (.ok b, s'') ↔
      ∃ a s', x s = (.ok a, s') ∧ f a s' = (.ok b, s'') := by
  rw [bind_apply]
  constructor
  · intro h
    cases hx : x s with
    | mk r s₁ =>
        cases r with
        | ok a =>
            rw [hx] at h
            exact ⟨a, s₁, rfl, h⟩
        | error e =>
            rw [hx] at h
            cases h
  · intro hParts
    rcases hParts with ⟨a, s', hx, hf⟩
    rw [hx]
    exact hf

/- A sequence fails exactly when the first of its parts to fail does. -/
theorem bind_eq_error_iff
    {x : ExceptT ε (StateM σ) α}
    {f : α → ExceptT ε (StateM σ) β}
    {s s'' : σ}
    {e : ε} :
    (x >>= f) s = (.error e, s'') ↔
      x s = (.error e, s'') ∨
        ∃ a s', x s = (.ok a, s') ∧ f a s' = (.error e, s'') := by
  rw [bind_apply]
  rcases hx : x s with ⟨_ | a, s₁⟩
  · constructor
    · intro h
      cases h
      exact .inl rfl
    · intro hCases
      rcases hCases with h | ⟨a, s', h, _⟩
      · cases h
        rfl
      · cases h
  · constructor
    · intro h
      exact .inr ⟨a, s₁, rfl, h⟩
    · intro hCases
      rcases hCases with h | ⟨a', s', h, hf⟩
      · cases h
      · cases h
        exact hf

/- The second part of a sequence, to be split into its cases. -/
theorem bind_ok_branch
    {x : ExceptT ε (StateM σ) α}
    {f : α → ExceptT ε (StateM σ) β}
    {s s'' : σ}
    {b : β}
    (h : (x >>= f) s = (.ok b, s'')) :
    ∃ a s' branch,
      x s = (.ok a, s') ∧ f a = branch ∧
        branch s' = (.ok b, s'') := by
  rcases bind_eq_ok_iff.mp h with ⟨a, s', hx, hf⟩
  exact ⟨a, s', f a, hx, rfl, hf⟩

------------------------------------------------------------
-- Results Alone
------------------------------------------------------------

theorem except_bind_eq_ok_iff
    {x : Except ε α}
    {f : α → Except ε β}
    {b : β} :
    (x >>= f) = .ok b ↔ ∃ a, x = .ok a ∧ f a = .ok b := by
  cases x with
  | error e =>
      constructor
      · intro h
        cases h
      · intro hParts
        rcases hParts with ⟨a, h, _⟩
        cases h
  | ok a =>
      constructor
      · intro h
        exact ⟨a, rfl, h⟩
      · intro hParts
        rcases hParts with ⟨_, h, hf⟩
        cases h
        exact hf

theorem except_map_eq_ok_iff
    {x : Except ε α}
    {f : α → β}
    {b : β} :
    x.map f = .ok b ↔ ∃ a, x = .ok a ∧ f a = b := by
  cases x <;> simp [Except.map]

theorem except_mapError_eq_ok_iff
    {δ : Type}
    {x : Except ε α}
    {f : ε → δ}
    {a : α} :
    x.mapError f = .ok a ↔ x = .ok a := by
  cases x with
  | error e => exact ⟨nofun, nofun⟩
  | ok a' =>
      change Except.ok a' = .ok a ↔ _
      rw [Except.ok.injEq, Except.ok.injEq]

theorem except_bind_eq_error_iff
    {x : Except ε α}
    {f : α → Except ε β}
    {e : ε} :
    (x >>= f) = .error e ↔
      x = .error e ∨ ∃ a, x = .ok a ∧ f a = .error e := by
  cases x with
  | error e' =>
      constructor
      · intro h
        cases h
        exact .inl rfl
      · intro hCases
        rcases hCases with h | ⟨a, h, _⟩
        · cases h
          rfl
        · cases h
  | ok a =>
      constructor
      · intro h
        exact .inr ⟨a, rfl, h⟩
      · intro hCases
        rcases hCases with h | ⟨_, h, hf⟩
        · cases h
        · cases h
          exact hf

theorem except_map_eq_error_iff
    {x : Except ε α}
    {f : α → β}
    {e : ε} :
    x.map f = .error e ↔ x = .error e := by
  cases x <;> simp [Except.map]

theorem except_mapError_eq_error_iff
    {δ : Type}
    {x : Except ε α}
    {f : ε → δ}
    {d : δ} :
    x.mapError f = .error d ↔ ∃ e, x = .error e ∧ f e = d := by
  cases x with
  | error e =>
      change Except.error (f e) = .error d ↔ _
      simp
  | ok a => exact ⟨nofun, nofun⟩

end Action

end TreeWire
