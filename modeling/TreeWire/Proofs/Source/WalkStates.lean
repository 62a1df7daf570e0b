import TreeWire.Proofs.Source.ReachableStates

/-
  The states of a walk, and the order of its tokens.

  On the stack of a walk stand the rests of the containers that
  are open, and at most one value on top of them: the document
  before the first step, or the value of a member whose key was
  delivered last.  So the depth of a walk counts the containers
  on its stack, and a container that closes was counted.

  The results of a walk are the tokens of its document in order,
  and the end for good; or those before the first container that
  opens beyond the limit, and its error for good.

  Key definitions include:
    * `ValueWalk.Standing`
    * `ValueWalk.Balanced`
    * `ValueWalk.InOrder`

  Main statements:
    * `ValueWalk.Standing.step`
    * `ValueWalk.stream_standing`
    * `Token.nesting_at_cut`
    * `walk_balanced_and_in_order`
-/

namespace TreeWire

------------------------------------------------------------
-- Nesting of Tokens
------------------------------------------------------------

namespace Token

variable {limit depth : Nat}
variable {t : Token}
variable {ts us vs : List Token}

/- How many containers are open after tokens. -/
def nesting
    (depth : Nat)
    (ts : List Token) : Nat :=
  ts.foldl nest depth

/- A token that is not cut off stays within the limit. -/
theorem nest_le
    (hDepth : depth ≤ limit)
    (hKept : ¬ (t.opens = true ∧ limit ≤ depth)) :
    t.nest depth ≤ limit := by
  cases t with
  | objectOpen | arrayOpen =>
      exact Nat.lt_of_not_le fun hCut => hKept ⟨rfl, hCut⟩
  | objectClose | arrayClose =>
      exact Nat.le_trans (Nat.sub_le _ _) hDepth
  | _ => exact hDepth

/- A container that is not cut off opens below the limit. -/
theorem nesting_lt_of_opens
    (hDepth : depth ≤ limit)
    (hKept : us ++ [t] <+: within limit depth ts)
    (hOpens : t.opens = true) :
    nesting depth us < limit := by
  induction ts generalizing depth us with
  | nil => simp [within] at hKept
  | cons t' ts ih =>
      rw [within] at hKept
      split at hKept
      · simp at hKept
      · rename_i hFirst
        cases us with
        | nil =>
            have hSame : t = t' := by simpa using hKept
            subst hSame
            exact Nat.lt_of_not_le fun hCut => hFirst ⟨hOpens, hCut⟩
        | cons u us =>
            rw [List.cons_append, List.cons_prefix_cons] at hKept
            rcases hKept with ⟨rfl, hKept⟩
            have hRest : nesting (u.nest depth) us < limit :=
              ih (nest_le hDepth hFirst) hKept
            exact hRest

/- Tokens are cut off where as many are open as may be. -/
theorem nesting_at_cut
    (hDepth : depth ≤ limit)
    (hCut : within limit depth (us ++ t :: vs) = us) :
    nesting depth us = limit := by
  induction us generalizing depth with
  | nil =>
      rw [List.nil_append, within] at hCut
      split at hCut
      · rename_i hFirst
        exact Nat.le_antisymm hDepth hFirst.2
      · cases hCut
  | cons u us ih =>
      rw [List.cons_append, within] at hCut
      split at hCut
      · cases hCut
      · rename_i hFirst
        have hRest : nesting (u.nest depth) us = limit :=
          ih (nest_le hDepth hFirst) (List.cons.inj hCut).2
        exact hRest

end Token

------------------------------------------------------------
-- States of a Walk
------------------------------------------------------------

/- Whether a stack entry is what is left of a container. -/
def WalkStep.isContainer : WalkStep → Bool
  | .value _ => false
  | .members _ => true
  | .elements _ => true

namespace ValueWalk

variable {j : Json}
variable {limit : Nat}
variable {w w' : ValueWalk}
variable {t : Token}

/-
  The states of a walk through a document: before its first
  step, between values, and before the value of a member.  All
  other entries are containers.
-/
inductive Standing
    (j : Json)
    (limit : Nat) : ValueWalk → Prop where
  | start :
      Standing j limit (start j limit)
  | between
      {stack : List WalkStep}
      (hContainers : ∀ entry ∈ stack, entry.isContainer = true)
      (hLimit : stack.length ≤ limit) :
      Standing j limit ⟨stack, stack.length, limit⟩
  | member
      {value : Json}
      {rest : List (String × Json)}
      {below : List WalkStep}
      (hContainers : ∀ entry ∈ below, entry.isContainer = true)
      (hLimit : below.length + 1 ≤ limit) :
      Standing j limit
        ⟨.value value :: .members rest :: below,
          below.length + 1, limit⟩

/- A value is entered on top of containers. -/
theorem enter_standing
    {value : Json}
    {stack below : List WalkStep}
    (hContainers : ∀ entry ∈ below, entry.isContainer = true)
    (hLimit : below.length ≤ limit)
    (h :
      enter ⟨stack, below.length, limit⟩ below value =
        (.ok t, w')) :
    Standing j limit w' := by
  cases value with
  | literal lit =>
      cases h
      exact .between hContainers hLimit
  | array items | object members =>
      rw [enter] at h
      split at h
      · cases h
      · rename_i hDepth
        cases h
        refine .between ?_ (Nat.lt_of_not_le hDepth)
        exact List.forall_mem_cons.mpr ⟨rfl, hContainers⟩

/- A step that succeeds keeps the shape of the stack. -/
theorem Standing.step
    (h : Standing j limit w)
    (hStep : step w = (.ok t, w')) :
    Standing j limit w' := by
  cases h with
  | start =>
      exact enter_standing (List.forall_mem_nil _) (Nat.zero_le _)
        hStep
  | @between stack hContainers hLimit =>
      cases stack with
      | nil =>
          cases hStep
          exact .between (List.forall_mem_nil _) (Nat.zero_le _)
      | cons entry below =>
          have hBelow := (List.forall_mem_cons.mp hContainers).2
          cases entry with
          | value j' =>
              have hFirst := hContainers _ List.mem_cons_self
              cases hFirst
          | members rest =>
              cases rest with
              | nil =>
                  cases hStep
                  exact .between hBelow (Nat.le_of_succ_le hLimit)
              | cons m rest =>
                  cases hStep
                  exact .member hBelow hLimit
          | elements rest =>
              cases rest with
              | nil =>
                  cases hStep
                  exact .between hBelow (Nat.le_of_succ_le hLimit)
              | cons item rest =>
                  have hRest :
                      ∀ entry ∈ WalkStep.elements rest :: below,
                        entry.isContainer = true :=
                    List.forall_mem_cons.mpr ⟨rfl, hBelow⟩
                  exact enter_standing hRest hLimit hStep
  | @member value rest below hContainers hLimit =>
      have hRest :
          ∀ entry ∈ WalkStep.members rest :: below,
            entry.isContainer = true :=
        List.forall_mem_cons.mpr ⟨rfl, hContainers⟩
      exact enter_standing hRest hLimit hStep

/- Whatever is called, the stack keeps its shape. -/
theorem stream_standing
    {s : Stream ValueWalk}
    (h : (stream j limit).Reaches s)
    (hFailed : s.failed = none) :
    Standing j limit s.machine := by
  have hStart :
      (stream j limit).Stands (Standing j limit)
        (fun _ _ => True) :=
    Standing.start
  have hStands := h.stands Standing.step (fun _ _ => trivial) hStart
  exact hStands.going hFailed

/-
  The depth counts the containers on the stack, within the
  limit.  A value is the whole document before the first step,
  or stands on top, right above the rest of the members of an
  object.  A container that closes has been counted.
-/
structure Balanced
    (j : Json)
    (limit : Nat)
    (w : ValueWalk) : Prop where
  depth_eq :
    w.depth = w.stack.countP WalkStep.isContainer
  depth_le :
    w.depth ≤ limit
  pending :
    ∀ {above value below},
      w.stack = above ++ .value value :: below →
      w = start j limit ∨
        above = [] ∧ ∃ rest under, below = .members rest :: under
  closes :
    ∀ {t w'},
      step w = (.ok t, w') → t = .objectClose ∨ t = .arrayClose →
      w'.depth + 1 = w.depth

/- No value stands among containers. -/
theorem value_not_mem
    {value : Json}
    {stack above below : List WalkStep}
    (hContainers : ∀ entry ∈ stack, entry.isContainer = true) :
    stack ≠ above ++ .value value :: below := by
  intro hEq
  have hMem : .value value ∈ stack := by simp [hEq]
  cases hContainers _ hMem

/- Entering a value closes nothing. -/
theorem enter_ne_close
    {below : List WalkStep}
    {value : Json}
    (h : enter w below value = (.ok t, w')) :
    ¬ (t = .objectClose ∨ t = .arrayClose) := by
  have hEnters := enter_enters w below value
  rw [h] at hEnters
  cases hEnters with
  | ok hTokens =>
      cases value with
      | literal | array | object =>
          cases hTokens
          simp

/- Where there are containers only, the innermost one closes. -/
theorem step_closes
    {stack : List WalkStep}
    (hContainers : ∀ entry ∈ stack, entry.isContainer = true)
    (hStep : step ⟨stack, stack.length, limit⟩ = (.ok t, w'))
    (hClose : t = .objectClose ∨ t = .arrayClose) :
    w'.depth + 1 = stack.length := by
  cases stack with
  | nil =>
      cases hStep
      simp at hClose
  | cons entry below =>
      cases entry with
      | value j' => exact absurd hClose (enter_ne_close hStep)
      | members rest =>
          cases rest with
          | nil =>
              cases hStep
              rfl
          | cons m rest =>
              cases hStep
              simp at hClose
      | elements rest =>
          cases rest with
          | nil =>
              cases hStep
              rfl
          | cons item rest =>
              exact absurd hClose (enter_ne_close hStep)

theorem countP_containers
    {stack : List WalkStep}
    (hContainers : ∀ entry ∈ stack, entry.isContainer = true) :
    stack.countP WalkStep.isContainer = stack.length :=
  List.countP_eq_length.mpr hContainers

theorem Standing.balanced
    (h : Standing j limit w) :
    Balanced j limit w := by
  cases h with
  | start =>
      exact ⟨rfl, Nat.zero_le _, fun _ => .inl rfl,
        fun hStep hClose => absurd hClose (enter_ne_close hStep)⟩
  | between hContainers hLimit =>
      exact ⟨(countP_containers hContainers).symm, hLimit,
        fun hStack => absurd hStack (value_not_mem hContainers),
        step_closes hContainers⟩
  | @member value rest below hContainers hLimit =>
      have hRest :
          ∀ entry ∈ WalkStep.members rest :: below,
            entry.isContainer = true :=
        List.forall_mem_cons.mpr ⟨rfl, hContainers⟩
      refine ⟨(countP_containers hRest).symm, hLimit, ?_,
        fun hStep hClose => absurd hClose (enter_ne_close hStep)⟩
      intro above value' under hStack
      cases above with
      | nil =>
          cases hStack
          exact .inr ⟨rfl, rest, below, rfl⟩
      | cons entry above =>
          exact absurd (List.cons.inj hStack).2
            (value_not_mem hRest)

------------------------------------------------------------
-- Whole Walks
------------------------------------------------------------

/-
  What holds of a walk through a document, whatever is called.

  In every state without a failure the depth is exact.  Reading
  after reading gives the tokens of the document and the end for
  good, if it nests within the limit.  If not, the tokens break
  off before the first container that is one too many, and the
  error of the limit comes for good.
-/
structure InOrder
    (j : Json)
    (limit : Nat) : Prop where
  balanced :
    ∀ {s}, (stream j limit).Reaches s → s.failed = none →
      Balanced j limit s.machine
  whole :
    j.depth ≤ limit →
      ∀ n, (stream j limit).resultAt n = .ok (j.tokens[n]?.getD .eof)
  cut :
    limit < j.depth →
      ∃ before t after,
        j.tokens = before ++ t :: after ∧
          t.opens = true ∧
          Token.nesting 0 before = limit ∧
          (∀ {front t'},
            front ++ [t'] <+: before → t'.opens = true →
            Token.nesting 0 front < limit) ∧
          ∀ n,
            (stream j limit).resultAt n =
              match before[n]? with
              | some t' => .ok t'
              | none => .error (tooDeep limit)

/- The results of a walk are those of its document. -/
theorem stream_resultAt
    (j : Json)
    (limit n : Nat) :
    (stream j limit).resultAt n = j.resultAt limit none n := by
  rcases (stream_tells j limit).resultAt_eq with
    ⟨position, hUnsited, hWalk⟩
  rw [hWalk, Json.resultAt, Json.resultAt]
  by_cases hDepth : j.depth ≤ limit
  · rw [if_pos hDepth, if_pos hDepth]
  · cases hUnsited (Nat.lt_of_not_le hDepth)
    rfl

end ValueWalk

/-
  A walk is a traversal in order with an exact depth, for every
  document and every limit.
-/
theorem walk_balanced_and_in_order
    (j : Json)
    (limit : Nat) :
    ValueWalk.InOrder j limit where
  balanced := fun hReaches hFailed =>
    (ValueWalk.stream_standing hReaches hFailed).balanced
  whole := by
    intro hDepth n
    rw [ValueWalk.stream_resultAt, Json.resultAt,
      (Json.within_tokens_eq_iff j).mpr hDepth, if_pos hDepth]
    cases j.tokens[n]? <;> rfl
  cut := by
    intro hDeep
    have hBeyond : limit < 0 + j.depth := by
      rwa [Nat.zero_add]
    rcases Json.within_tokens_beyond j 0 (Nat.zero_le _) hBeyond
      with ⟨before, t, after, hTokens, hOpens, hWithin⟩
    have hCut := hWithin []
    rw [List.append_nil] at hCut
    refine ⟨before, t, after, hTokens, hOpens, ?_, ?_, fun n => ?_⟩
    · rw [hTokens] at hCut
      exact Token.nesting_at_cut (Nat.zero_le _) hCut
    · intro front t' hFront hOpens'
      rw [← hCut] at hFront
      exact Token.nesting_lt_of_opens (Nat.zero_le _) hFront hOpens'
    · rw [ValueWalk.stream_resultAt, Json.resultAt, hCut,
        if_neg (Nat.not_le_of_lt hDeep)]
      rfl

end TreeWire
