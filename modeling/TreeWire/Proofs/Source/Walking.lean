import TreeWire.Proofs.Source.Nesting
import TreeWire.Source.ValueWalk

/-
  Whole walks through a parsed document.

  The tokens ahead of a walk are those of its stack entries,
  one entry after another.  Each step takes the first of them
  off, or fails because it opens a container beyond the limit.
  So a walk tells the document that it started with.

  Main statements:
    * `ValueWalk.step_ok`
    * `ValueWalk.stream_tells`
-/

namespace TreeWire

namespace ValueWalk

variable {w w' : ValueWalk} {t : Token} {ts : List Token}

------------------------------------------------------------
-- Tokens Ahead
------------------------------------------------------------

/- The tokens that a walk has not delivered. -/
def ahead
    (w : ValueWalk) : List Token :=
  w.stack.flatMap stepTokens

theorem bound_eq_length
    (w : ValueWalk) :
    w.bound = w.ahead.length :=
  rfl

theorem tokens_ne_nil
    (j : Json) :
    j.tokens ≠ [] := by
  cases j <;> simp [Json.tokens]

/- Something is left of every stack entry. -/
theorem stepTokens_ne_nil
    (entry : WalkStep) :
    stepTokens entry ≠ [] := by
  cases entry with
  | value j => exact tokens_ne_nil j
  | members rest => simp [stepTokens]
  | elements rest => simp [stepTokens]

theorem stack_eq_nil_of_ahead
    (h : w.ahead = []) :
    w.stack = [] := by
  cases hStack : w.stack with
  | nil => rfl
  | cons entry below =>
      rw [ahead, hStack, List.flatMap_cons,
        List.append_eq_nil_iff] at h
      exact absurd h.1 (stepTokens_ne_nil entry)

------------------------------------------------------------
-- One Step
------------------------------------------------------------

/- What entering a value does with the tokens ahead. -/
inductive Enters
    (w : ValueWalk)
    (ts : List Token) :
    Except DecodeError Token × ValueWalk → Prop where
  | ok
      {t : Token}
      {rest : List Token}
      {w' : ValueWalk}
      (hTokens : ts = t :: rest)
      (hAhead : w'.ahead = rest)
      (hDepth : w'.depth = t.nest w.depth)
      (hLimit : w'.maxDepth = w.maxDepth)
      (hWithin : ¬ (t.opens = true ∧ w.maxDepth ≤ w.depth)) :
      Enters w ts (.ok t, w')
  | tooDeep
      {t : Token}
      {rest : List Token}
      {w' : ValueWalk}
      (hTokens : ts = t :: rest)
      (hOpens : t.opens = true)
      (hDeep : w.maxDepth ≤ w.depth) :
      Enters w ts (.error (tooDeep w.maxDepth), w')

/- The first token of a value, and what is left of the value. -/
theorem enter_enters
    (w : ValueWalk)
    (below : List WalkStep)
    (j : Json) :
    Enters w (j.tokens ++ below.flatMap stepTokens)
      (enter w below j) := by
  cases j with
  | literal lit =>
      refine .ok rfl rfl rfl rfl ?_
      simp [Token.opens]
  | array items =>
      rw [enter]
      by_cases hDeep : w.maxDepth ≤ w.depth
      · rw [if_pos hDeep]
        exact .tooDeep rfl rfl hDeep
      · rw [if_neg hDeep]
        exact .ok rfl rfl rfl rfl fun hCut => hDeep hCut.2
  | object members =>
      rw [enter]
      by_cases hDeep : w.maxDepth ≤ w.depth
      · rw [if_pos hDeep]
        exact .tooDeep rfl rfl hDeep
      · rw [if_neg hDeep]
        exact .ok rfl rfl rfl rfl fun hCut => hDeep hCut.2

/- A step takes the first of the tokens ahead off. -/
theorem step_enters
    (h : w.stack ≠ []) :
    Enters w w.ahead (step w) := by
  rcases w with ⟨stack, depth, maxDepth⟩
  rcases stack with _ | ⟨entry, below⟩
  · exact absurd rfl h
  · cases entry with
    | value j => exact enter_enters _ below j
    | members rest =>
        cases rest with
        | nil =>
            refine .ok rfl rfl rfl rfl ?_
            simp [Token.opens]
        | cons m rest =>
            rcases m with ⟨key, j⟩
            have hAhead :
                ahead ⟨.members ((key, j) :: rest) :: below,
                    depth, maxDepth⟩ =
                  .key key ::
                    ahead ⟨.value j :: .members rest :: below,
                      depth, maxDepth⟩ := by
              simp [ahead, stepTokens, Json.memberTokens]
            refine .ok hAhead rfl rfl rfl ?_
            simp [Token.opens]
    | elements rest =>
        cases rest with
        | nil =>
            refine .ok rfl rfl rfl rfl ?_
            simp [Token.opens]
        | cons j rest =>
            have hEnters :=
              enter_enters ⟨.elements (j :: rest) :: below,
                depth, maxDepth⟩ (.elements rest :: below) j
            simpa [ahead, stepTokens, Json.itemTokens, step]
              using hEnters

theorem step_of_nil
    (h : w.stack = []) :
    step w = (.ok .eof, w) := by
  rw [step, h]

/- Each token that a walk delivers is taken off those ahead. -/
theorem step_ok
    (h : step w = (.ok t, w')) :
    (t = .eof ∧ w' = w) ∨ w.ahead = t :: w'.ahead := by
  by_cases hStack : w.stack = []
  · rw [step_of_nil hStack] at h
    cases h
    exact .inl ⟨rfl, rfl⟩
  · have hEnters := step_enters hStack
    rw [h] at hEnters
    cases hEnters with
    | ok hTokens hAhead =>
        rw [hTokens, hAhead]
        exact .inr rfl

instance : LawfulMachine ValueWalk where
  bound_lt := by
    intro w w' t hStep hEof
    rcases step_ok hStep with ⟨hEq, _⟩ | hAhead
    · exact absurd hEq hEof
    · change w'.bound < w.bound
      rw [bound_eq_length, bound_eq_length, hAhead]
      exact Nat.lt_succ_self _
  bound_le := by
    intro w w' hStep
    change w'.bound ≤ w.bound
    rcases step_ok hStep with ⟨_, rfl⟩ | hAhead
    · exact Nat.le_refl _
    · rw [bound_eq_length, bound_eq_length, hAhead]
      exact Nat.le_succ _

------------------------------------------------------------
-- Whole Walks
------------------------------------------------------------

/- The error of a walk names no position. -/
def Unsited
    (position : Option Position) : Prop :=
  position = none

/-
  A walk goes through the tokens ahead of it.  The induction is
  on those tokens, one step for each.
-/
theorem goesThrough_ahead
    (h : w.ahead = ts) :
    ∃ w',
      w'.stack = [] ∧
        (Stream.start w).GoesThrough Unsited w.maxDepth w.depth
          ts (Stream.start w') := by
  induction ts generalizing w with
  | nil => exact ⟨w, stack_eq_nil_of_ahead h, .nil _⟩
  | cons t ts ih =>
      have hStack : w.stack ≠ [] := by
        intro hNil
        rw [ahead, hNil] at h
        cases h
      have hEnters := step_enters hStack
      rw [h] at hEnters
      generalize hStep : step w = out at hEnters
      cases hEnters with
      | @ok t' rest w₁ hTokens hAhead hDepth hLimit hWithin =>
          cases hTokens
          rcases ih hAhead with ⟨w', hNil, hThrough⟩
          rw [hDepth, hLimit] at hThrough
          exact ⟨w', hNil, .cons
            (Stream.next_start_ok_iff.mpr ⟨w₁, hStep, rfl⟩)
            hWithin hThrough⟩
      | tooDeep hTokens hOpens hDeep =>
          cases hTokens
          exact ⟨⟨[], 0, 0⟩, rfl, .tooDeep ts _ hOpens hDeep
            ⟨none, _, rfl, Stream.next_start_error hStep⟩⟩

/- A walk tells its document. -/
theorem stream_tells
    (j : Json)
    (limit : Nat) :
    (stream j limit).Tells Unsited limit j := by
  have hAhead : (start j limit).ahead = j.tokens := by
    simp [start, ahead, stepTokens]
  rcases goesThrough_ahead hAhead with ⟨w', hNil, hThrough⟩
  have hEnd : (Stream.start w').AtEnd :=
    Stream.next_start_ok_iff.mpr ⟨w', step_of_nil hNil, rfl⟩
  exact ⟨_, _, hThrough, hEnd, hEnd⟩

end ValueWalk

end TreeWire
