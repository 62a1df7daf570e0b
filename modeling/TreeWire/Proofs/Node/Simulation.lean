import TreeWire.Proofs.Source.Readings

/-
  Decoding two streams that deliver alike tokens.

  A simulation relates the states of two streams.  Related
  states deliver alike tokens and stay related, or they fail
  alike, or the second one stops with a failure of its own.
  Decoding carries this through: it gives the same tree, or
  alike errors, or the second stream has stopped.

  The streams may have different bounds.  As long as each
  decoder has more levels and parts than its stream has tokens
  left, their numbers do not matter.

  Main statements:
    * `Simulation.decodeWithin`
    * `Simulation.decodeDocument`
-/

namespace TreeWire

------------------------------------------------------------
-- Alike Tokens
------------------------------------------------------------

/-
  Tokens that no decoder can tell apart: they are equal, or
  they are two texts of one double.
-/
def Token.Alike
    (t t' : Token) : Prop :=
  t = t' ∨
    ∃ a b x,
      t = .literal ⟨.float, a⟩ ∧
        t' = .literal ⟨.float, b⟩ ∧
        readFloat? a = some x ∧ readFloat? b = some x

namespace Token.Alike

variable {t t' : Token}

theorem refl
    (t : Token) :
    t.Alike t :=
  Or.inl rfl

theorem kind_eq
    (h : t.Alike t') :
    t.kind = t'.kind := by
  rcases h with rfl | ⟨a, b, x, rfl, rfl, _, _⟩ <;> rfl

theorem startsValue_eq
    (h : t.Alike t') :
    t.startsValue = t'.startsValue := by
  rcases h with rfl | ⟨a, b, x, rfl, rfl, _, _⟩ <;> rfl

theorem wrongShape_eq
    (h : t.Alike t')
    (expected : String) :
    Token.wrongShape expected t = Token.wrongShape expected t' := by
  rw [Token.wrongShape, Token.wrongShape, h.kind_eq]

theorem readString_eq
    (h : t.Alike t') :
    t.readString = t'.readString := by
  rcases h with rfl | ⟨a, b, x, rfl, rfl, _, _⟩ <;> rfl

theorem ofToken_eq
    (h : t.Alike t')
    (type : ScalarType) :
    type.ofToken t = type.ofToken t' := by
  rcases h with rfl | ⟨a, b, x, rfl, rfl, ha, hb⟩
  · rfl
  · cases type with
    | float64 =>
        simp [ScalarType.ofToken, Token.readFloat,
          Token.literalText, ha, hb]
    | string => rfl
    | int64 => rfl
    | bool => rfl

/- A token that is no literal has no other alike. -/
theorem eq_iff
    (h : t.Alike t')
    {mark : Token}
    (hMark : ∀ lit, mark ≠ .literal lit) :
    t = mark ↔ t' = mark := by
  rcases h with rfl | ⟨a, b, x, rfl, rfl, _, _⟩
  · rfl
  · constructor
    · intro hEq
      exact absurd hEq.symm (hMark _)
    · intro hEq
      exact absurd hEq.symm (hMark _)

end Token.Alike

------------------------------------------------------------
-- Simulations
------------------------------------------------------------

/-
  A relation between the states of two streams that their
  readings keep, a relation between the errors of both, and the
  errors with which the second one may stop.
-/
structure Simulation
    (μ ν : Type)
    [TokenMachine μ]
    [TokenMachine ν] where
  Rel : Stream μ → Stream ν → Prop
  Errors : DecodeError → DecodeError → Prop
  Stops : DecodeError → Prop
  errors_refl : ∀ e, Errors e e
  errors_hop :
    ∀ {e e'} (hop : Hop), Errors e e' →
      Errors ⟨e.cause, hop :: e.path⟩ ⟨e'.cause, hop :: e'.path⟩
  stops_hop :
    ∀ {e} (hop : Hop), Stops e → Stops ⟨e.cause, hop :: e.path⟩
  next :
    ∀ {s s'}, Rel s s' →
      (∃ t t' s₁ s₁',
        s.next = (.ok t, s₁) ∧ s'.next = (.ok t', s₁') ∧
          t.Alike t' ∧ Rel s₁ s₁' ∧
          Rel (s₁.hold t) (s₁'.hold t')) ∨
      (∃ e e' s₁ s₁',
        s.next = (.error e, s₁) ∧ s'.next = (.error e', s₁') ∧
          Errors e e') ∨
      ∃ e' s₁', s'.next = (.error e', s₁') ∧ Stops e'

/- Equal errors stay equal one hop further out. -/
theorem errors_hop_eq
    {e e' : DecodeError}
    (hop : Hop)
    (h : e = e') :
    (⟨e.cause, hop :: e.path⟩ : DecodeError) =
      ⟨e'.cause, hop :: e'.path⟩ := by
  rw [h]

namespace Simulation

variable {μ ν : Type} [TokenMachine μ] [TokenMachine ν]

/-
  Two results go together: both succeed with related values in
  related states with less than so much left, or both fail alike,
  or the second one has stopped.
-/
inductive Outcome
    (S : Simulation μ ν)
    {α β : Type}
    (A : α → β → Prop)
    (b b' : Nat) :
    Except DecodeError α × Stream μ →
    Except DecodeError β × Stream ν → Prop where
  | ok
      {a : α}
      {a' : β}
      {s : Stream μ}
      {s' : Stream ν}
      (hValues : A a a')
      (hStates : S.Rel s s')
      (hLeft : s.left < b)
      (hLeft' : s'.left < b') :
      Outcome S A b b' (.ok a, s) (.ok a', s')
  | error
      {e e' : DecodeError}
      {s : Stream μ}
      {s' : Stream ν}
      (hErrors : S.Errors e e') :
      Outcome S A b b' (.error e, s) (.error e', s')
  | stop
      {out : Except DecodeError α × Stream μ}
      {e' : DecodeError}
      {s' : Stream ν}
      (hStops : S.Stops e') :
      Outcome S A b b' out (.error e', s')

namespace Outcome

variable {S : Simulation μ ν}
variable {α β γ δ : Type}
variable {A : α → β → Prop} {B : γ → δ → Prop}
variable {b b' c c' : Nat}

theorem weaken
    {out : Except DecodeError α × Stream μ}
    {out' : Except DecodeError β × Stream ν}
    (h : Outcome S A b b' out out')
    (hb : b ≤ c)
    (hb' : b' ≤ c') :
    Outcome S A c c' out out' := by
  cases h with
  | ok hValues hStates hLeft hLeft' =>
      exact .ok hValues hStates (Nat.lt_of_lt_of_le hLeft hb)
        (Nat.lt_of_lt_of_le hLeft' hb')
  | error hErrors => exact .error hErrors
  | stop hStops => exact .stop hStops

theorem bind
    {x : Reading (Stream μ) α}
    {y : Reading (Stream ν) β}
    {f : α → Reading (Stream μ) γ}
    {g : β → Reading (Stream ν) δ}
    {s : Stream μ}
    {s' : Stream ν}
    (h : Outcome S A b b' (x s) (y s'))
    (hNext :
      ∀ a a' s₁ s₁', A a a' → S.Rel s₁ s₁' →
        s₁.left < b → s₁'.left < b' →
        Outcome S B c c' (f a s₁) (g a' s₁')) :
    Outcome S B c c' ((x >>= f) s) ((y >>= g) s') := by
  generalize hx : x s = out at h
  generalize hy : y s' = out' at h
  cases h with
  | ok hValues hStates hLeft hLeft' =>
      rw [Action.bind_ok hx, Action.bind_ok hy]
      exact hNext _ _ _ _ hValues hStates hLeft hLeft'
  | error hErrors =>
      rw [Action.bind_error hx, Action.bind_error hy]
      exact .error hErrors
  | stop hStops =>
      rw [Action.bind_error hy]
      exact .stop hStops

theorem mapError
    {x : Reading (Stream μ) α}
    {y : Reading (Stream ν) β}
    {s : Stream μ}
    {s' : Stream ν}
    (hop : Hop)
    (h : Outcome S A b b' (x s) (y s')) :
    Outcome S A b b'
      (Reading.mapError
        (fun e => ⟨e.cause, hop :: e.path⟩) x s)
      (Reading.mapError
        (fun e => ⟨e.cause, hop :: e.path⟩) y s') := by
  generalize hx : x s = out at h
  generalize hy : y s' = out' at h
  cases h with
  | ok hValues hStates hLeft hLeft' =>
      rw [Reading.mapError_ok hx, Reading.mapError_ok hy]
      exact .ok hValues hStates hLeft hLeft'
  | error hErrors =>
      rw [Reading.mapError_error hx, Reading.mapError_error hy]
      exact .error (S.errors_hop hop hErrors)
  | stop hStops =>
      rw [Reading.mapError_error hy]
      exact .stop (S.stops_hop hop hStops)

theorem ofExcept
    {s : Stream μ}
    {s' : Stream ν}
    (r : Except DecodeError α)
    (hStates : S.Rel s s')
    (hLeft : s.left < b)
    (hLeft' : s'.left < b') :
    Outcome S Eq b b'
      ((Reading.ofExcept r : Reading (Stream μ) α) s)
      ((Reading.ofExcept r : Reading (Stream ν) α) s') := by
  cases r with
  | ok a => exact .ok rfl hStates hLeft hLeft'
  | error e => exact .error (S.errors_refl e)

end Outcome

------------------------------------------------------------
-- Small Readings
------------------------------------------------------------

section

variable [LawfulMachine μ] [LawfulMachine ν]
variable (S : Simulation μ ν)
variable {s : Stream μ} {s' : Stream ν}
variable {γ δ : Type} {B : γ → δ → Prop} {c c' : Nat}

/- A mark that opens a container. -/
theorem expectMark
    {mark : Token}
    (hLiteral : ∀ lit, mark ≠ .literal lit)
    (hEof : mark ≠ .eof)
    (h : S.Rel s s') :
    S.Outcome Eq s.left s'.left
      (TreeWire.expectMark mark s)
      (TreeWire.expectMark mark s') := by
  rcases S.next h with
    ⟨t, t', s₁, s₁', hNext, hNext', hAlike, hRel, _⟩ |
    ⟨e, e', s₁, s₁', hNext, hNext', hErrors⟩ |
    ⟨e', s₁', hNext', hStops⟩
  · by_cases hMark : t = mark
    · have hMark' := (hAlike.eq_iff hLiteral).mp hMark
      subst hMark
      subst hMark'
      rw [expectMark_eq hNext, expectMark_eq hNext']
      exact .ok rfl hRel (Stream.left_next_lt hNext hEof)
        (Stream.left_next_lt hNext' hEof)
    · have hMark' : t' ≠ mark := fun hEq =>
        hMark ((hAlike.eq_iff hLiteral).mpr hEq)
      rw [expectMark_ne hNext hMark, expectMark_ne hNext' hMark',
        hAlike.wrongShape_eq]
      exact .error (S.errors_refl _)
  · rw [expectMark_error hNext, expectMark_error hNext']
    exact .error hErrors
  · rw [expectMark_error hNext']
    exact .stop hStops

/- A closing mark, if it comes next. -/
theorem closes
    {mark : Token}
    (hLiteral : ∀ lit, mark ≠ .literal lit)
    (h : S.Rel s s') :
    S.Outcome Eq (s.left + 1) (s'.left + 1)
      (TreeWire.closes mark s) (TreeWire.closes mark s') := by
  rcases S.next h with
    ⟨t, t', s₁, s₁', hNext, hNext', hAlike, hRel, hHeld⟩ |
    ⟨e, e', s₁, s₁', hNext, hNext', hErrors⟩ |
    ⟨e', s₁', hNext', hStops⟩
  · by_cases hMark : t = mark
    · have hMark' := (hAlike.eq_iff hLiteral).mp hMark
      subst hMark
      subst hMark'
      rw [closes_eq hNext, closes_eq hNext']
      exact .ok rfl hRel
        (Nat.lt_succ_of_le (Stream.left_next_le hNext))
        (Nat.lt_succ_of_le (Stream.left_next_le hNext'))
    · have hMark' : t' ≠ mark := fun hEq =>
        hMark ((hAlike.eq_iff hLiteral).mpr hEq)
      rw [closes_ne hNext hMark, closes_ne hNext' hMark']
      exact .ok rfl hHeld
        (Nat.lt_succ_of_le (Stream.left_hold_le hNext))
        (Nat.lt_succ_of_le (Stream.left_hold_le hNext'))
  · rw [closes_error hNext, closes_error hNext']
    exact .error hErrors
  · rw [closes_error hNext']
    exact .stop hStops

/- A key, and what is done with it or without one. -/
theorem nextKey_bind
    {f : Option String → Reading (Stream μ) γ}
    {g : Option String → Reading (Stream ν) δ}
    (h : S.Rel s s')
    (hNone :
      ∀ s₁ s₁', S.Rel s₁ s₁' →
        s₁.left ≤ s.left → s₁'.left ≤ s'.left →
        S.Outcome B c c' (f none s₁) (g none s₁'))
    (hSome :
      ∀ key s₁ s₁', S.Rel s₁ s₁' →
        s₁.left < s.left → s₁'.left < s'.left →
        S.Outcome B c c' (f (some key) s₁) (g (some key) s₁')) :
    S.Outcome B c c'
      ((nextKey >>= f) s) ((nextKey >>= g) s') := by
  rcases S.next h with
    ⟨t, t', s₁, s₁', hNext, hNext', hAlike, hRel, _⟩ |
    ⟨e, e', s₁, s₁', hNext, hNext', hErrors⟩ |
    ⟨e', s₁', hNext', hStops⟩
  · have hLe := Stream.left_next_le hNext
    have hLe' := Stream.left_next_le hNext'
    rcases hAlike with rfl | ⟨a, b, x, rfl, rfl, _, _⟩
    · cases t with
      | key name =>
          rw [Action.bind_ok (nextKey_key hNext),
            Action.bind_ok (nextKey_key hNext')]
          exact hSome name s₁ s₁' hRel
            (Stream.left_next_lt hNext (by simp))
            (Stream.left_next_lt hNext' (by simp))
      | objectClose =>
          rw [Action.bind_ok (nextKey_close hNext),
            Action.bind_ok (nextKey_close hNext')]
          exact hNone s₁ s₁' hRel hLe hLe'
      | eof =>
          rw [Action.bind_ok (nextKey_eof hNext),
            Action.bind_ok (nextKey_eof hNext')]
          exact hNone s₁ s₁' hRel hLe hLe'
      | _ =>
          rw [Action.bind_error (nextKey_other hNext (by simp)
              (by simp) (by simp)),
            Action.bind_error (nextKey_other hNext' (by simp)
              (by simp) (by simp))]
          exact .error (S.errors_refl _)
    · rw [Action.bind_error (nextKey_other hNext (by simp)
          (by simp) (by simp)),
        Action.bind_error (nextKey_other hNext' (by simp)
          (by simp) (by simp))]
      exact .error (S.errors_refl _)
  · rw [Action.bind_error (nextKey_error hNext),
      Action.bind_error (nextKey_error hNext')]
    exact .error hErrors
  · rw [Action.bind_error (nextKey_error hNext')]
    exact .stop hStops

/- The token of a value, which may be given back. -/
theorem nextValue_bind
    {f : Token → Reading (Stream μ) γ}
    {g : Token → Reading (Stream ν) δ}
    (h : S.Rel s s')
    (hNext :
      ∀ t t' s₁ s₁', t.Alike t' →
        S.Rel s₁ s₁' → S.Rel (s₁.hold t) (s₁'.hold t') →
        s₁.left < s.left → s₁'.left < s'.left →
        (s₁.hold t).left ≤ s.left →
        (s₁'.hold t').left ≤ s'.left →
        S.Outcome B c c' (f t s₁) (g t' s₁')) :
    S.Outcome B c c'
      ((nextValue >>= f) s) ((nextValue >>= g) s') := by
  rcases S.next h with
    ⟨t, t', s₁, s₁', hRead, hRead', hAlike, hRel, hHeld⟩ |
    ⟨e, e', s₁, s₁', hRead, hRead', hErrors⟩ |
    ⟨e', s₁', hRead', hStops⟩
  · have hStarts := hAlike.startsValue_eq
    cases hValue : t.startsValue with
    | true =>
        rw [hValue] at hStarts
        have hEof : t ≠ .eof := by
          intro hEq
          subst hEq
          cases hValue
        have hEof' : t' ≠ .eof := by
          intro hEq
          subst hEq
          cases hStarts
        rw [Action.bind_ok (nextValue_starts hRead hValue),
          Action.bind_ok (nextValue_starts hRead' hStarts.symm)]
        exact hNext t t' s₁ s₁' hAlike hRel hHeld
          (Stream.left_next_lt hRead hEof)
          (Stream.left_next_lt hRead' hEof')
          (Stream.left_hold_le hRead)
          (Stream.left_hold_le hRead')
    | false =>
        rw [hValue] at hStarts
        rw [Action.bind_error (nextValue_other hRead hValue),
          Action.bind_error (nextValue_other hRead' hStarts.symm),
          hAlike.wrongShape_eq]
        exact .error (S.errors_refl _)
  · rw [Action.bind_error (nextValue_error hRead),
      Action.bind_error (nextValue_error hRead')]
    exact .error hErrors
  · rw [Action.bind_error (nextValue_error hRead')]
    exact .stop hStops

/- A tag and its value. -/
theorem readTag
    (tag : String)
    (h : S.Rel s s') :
    S.Outcome Eq s.left s'.left
      (TreeWire.readTag tag s) (TreeWire.readTag tag s') := by
  rcases S.next h with
    ⟨t, t', s₁, s₁', hNext, hNext', hAlike, hRel, _⟩ |
    ⟨e, e', s₁, s₁', hNext, hNext', hErrors⟩ |
    ⟨e', s₁', hNext', hStops⟩
  · rcases hAlike with rfl | ⟨a, b, x, rfl, rfl, _, _⟩
    · cases t with
      | key name =>
          unfold TreeWire.readTag
          rw [nextToken_bind_ok hNext, nextToken_bind_ok hNext']
          dsimp only
          split
          · apply S.nextValue_bind hRel
            intro u u' s₂ s₂' hAlike hRel₂ _ hLt hLt' _ _
            have hLe := Stream.left_next_le hNext
            have hLe' := Stream.left_next_le hNext'
            rw [hAlike.readString_eq]
            exact .ofExcept _ hRel₂ (by omega) (by omega)
          · exact .error (S.errors_refl _)
      | _ =>
          rw [readTag_other hNext (by simp),
            readTag_other hNext' (by simp)]
          exact .error (S.errors_refl _)
    · rw [readTag_other hNext (by simp),
        readTag_other hNext' (by simp)]
      exact .error (S.errors_refl _)
  · rw [readTag_error hNext, readTag_error hNext']
    exact .error hErrors
  · rw [readTag_error hNext']
    exact .stop hStops

theorem expectVariant
    (tag : String)
    (t : NodeType)
    (h : S.Rel s s') :
    S.Outcome Eq s.left s'.left
      (TreeWire.expectVariant tag t s)
      (TreeWire.expectVariant tag t s') := by
  unfold TreeWire.expectVariant
  apply Outcome.bind (S.readTag tag h)
  intro found _ s₁ s₁' hFound hRel hLt hLt'
  subst hFound
  by_cases hName : found = t.name
  · simp only [if_pos hName]
    exact .ok rfl hRel hLt hLt'
  · simp only [if_neg hName]
    exact .error (S.errors_refl _)

------------------------------------------------------------
-- Members and Elements
------------------------------------------------------------

section

variable {d : Shape → Reading (Stream μ) Tree}
variable {d' : Shape → Reading (Stream ν) Tree}
variable {b b' : Nat}

/-
  Two decoders give alike outcomes in related states with less
  than so much left, and read a token if they succeed.
-/
def Decoders
    (S : Simulation μ ν)
    (b b' : Nat)
    (d : Shape → Reading (Stream μ) Tree)
    (d' : Shape → Reading (Stream ν) Tree) : Prop :=
  ∀ shape s s',
    S.Rel s s' → s.left < b → s'.left < b' →
      S.Outcome Eq s.left s'.left (d shape s) (d' shape s')

omit [LawfulMachine μ] [LawfulMachine ν] in
/- The value of a member whose first token is read already. -/
theorem heldMember
    (hDecoders : S.Decoders b b' d d')
    (shape : Shape)
    {t t' : Token}
    {n n' : Nat}
    (hAlike : t.Alike t')
    (hRel : S.Rel s s')
    (hHeld : S.Rel (s.hold t) (s'.hold t'))
    (hLt : s.left < n)
    (hLt' : s'.left < n')
    (hLe : (s.hold t).left ≤ n)
    (hLe' : (s'.hold t').left ≤ n')
    (hb : n < b)
    (hb' : n' < b') :
    S.Outcome Eq n n'
      ((match shape with
        | .scalar type => Reading.ofExcept (type.ofToken t)
        | shape => do
            holdToken t
            d shape : Reading (Stream μ) Tree) s)
      ((match shape with
        | .scalar type => Reading.ofExcept (type.ofToken t')
        | shape => do
            holdToken t'
            d' shape : Reading (Stream ν) Tree) s') := by
  have hValue := fun shape =>
    (hDecoders shape (s.hold t) (s'.hold t') hHeld
      (Nat.lt_of_le_of_lt hLe hb)
      (Nat.lt_of_le_of_lt hLe' hb')).weaken hLe hLe'
  cases shape with
  | scalar type =>
      dsimp only
      rw [hAlike.ofToken_eq type]
      exact .ofExcept _ hRel hLt hLt'
  | node t => exact hValue (.node t)
  | sum sum => exact hValue (.sum sum)
  | list elem => exact hValue (.list elem)

theorem readMember
    (hDecoders : S.Decoders b b' d d')
    (t : NodeType)
    (key : String)
    (h : S.Rel s s')
    (hb : s.left < b)
    (hb' : s'.left < b') :
    S.Outcome Eq s.left s'.left
      (TreeWire.readMember t d key s)
      (TreeWire.readMember t d' key s') := by
  unfold TreeWire.readMember
  split
  · apply S.nextValue_bind h
    intro u u' s₁ s₁' hAlike hRel hHeld hLt hLt' hLe hLe'
    cases t.field? key with
    | none => exact .error (S.errors_refl _)
    | some f =>
        exact .mapError _
          (S.heldMember hDecoders f.shape hAlike hRel hHeld
            hLt hLt' hLe hLe' hb hb')
  · cases t.field? key with
    | none => exact .error (S.errors_refl _)
    | some f => exact .mapError _ (hDecoders _ s s' h hb hb')

/- The induction is on the parts of the first decoder. -/
theorem readMembers
    (hDecoders : S.Decoders b b' d d')
    (t : NodeType) :
    ∀ (parts parts' : Nat)
      (members : List (String × Tree))
      (s : Stream μ)
      (s' : Stream ν),
      S.Rel s s' →
      s.left < b → s'.left < b' →
      s.left < parts → s'.left < parts' →
      S.Outcome Eq (s.left + 1) (s'.left + 1)
        (TreeWire.readMembers t d parts members s)
        (TreeWire.readMembers t d' parts' members s')
  | 0, _, _, _, _, _, _, _, hParts, _ =>
      absurd hParts (Nat.not_lt_zero _)
  | _, 0, _, _, _, _, _, _, _, hParts' =>
      absurd hParts' (Nat.not_lt_zero _)
  | parts + 1, parts' + 1, members, s, s', h, hb, hb', hParts,
      hParts' => by
      unfold TreeWire.readMembers
      apply S.nextKey_bind h
      · intro s₁ s₁' hRel hLe hLe'
        exact .ok rfl hRel (Nat.lt_succ_of_le hLe)
          (Nat.lt_succ_of_le hLe')
      · intro key s₁ s₁' hRel hLt hLt'
        apply Outcome.bind
          (S.readMember hDecoders t key hRel (by omega) (by omega))
        intro value _ s₂ s₂' hValues hRel₂ hLt₂ hLt₂'
        subst hValues
        exact (readMembers hDecoders t parts parts' _ s₂ s₂' hRel₂
          (by omega) (by omega) (by omega) (by omega)).weaken
          (by omega) (by omega)

theorem readFields
    (hDecoders : S.Decoders b b' d d')
    (t : NodeType)
    {parts parts' : Nat}
    (h : S.Rel s s')
    (hb : s.left < b)
    (hb' : s'.left < b')
    (hParts : s.left < parts)
    (hParts' : s'.left < parts') :
    S.Outcome Eq (s.left + 1) (s'.left + 1)
      (TreeWire.readFields t d parts s)
      (TreeWire.readFields t d' parts' s') := by
  unfold TreeWire.readFields
  apply Outcome.bind
    (S.readMembers hDecoders t parts parts' [] s s' h hb hb'
      hParts hParts')
  intro members _ s₁ s₁' hMembers hRel hLt hLt'
  subst hMembers
  exact .ofExcept _ hRel hLt hLt'

/-
  The induction is on the parts of the first decoder: an
  element that is read takes a token.
-/
theorem readItems
    (hDecoders : S.Decoders b b' d d')
    (elem : Shape) :
    ∀ (parts parts' : Nat)
      (items : Array Tree)
      (s : Stream μ)
      (s' : Stream ν),
      S.Rel s s' →
      s.left < b → s'.left < b' →
      s.left < parts → s'.left < parts' →
      S.Outcome Eq (s.left + 1) (s'.left + 1)
        (TreeWire.readItems (d elem) parts items s)
        (TreeWire.readItems (d' elem) parts' items s')
  | 0, _, _, _, _, _, _, _, hParts, _ =>
      absurd hParts (Nat.not_lt_zero _)
  | _, 0, _, _, _, _, _, _, _, hParts' =>
      absurd hParts' (Nat.not_lt_zero _)
  | parts + 1, parts' + 1, items, s, s', h, hb, hb', hParts,
      hParts' => by
      unfold TreeWire.readItems
      apply Outcome.bind
        (Outcome.mapError _ (hDecoders elem s s' h hb hb'))
      intro item _ s₁ s₁' hItems hRel hLt hLt'
      subst hItems
      apply Outcome.bind (S.closes (by simp) hRel)
      intro closed _ s₂ s₂' hClosed hRel₂ hLt₂ hLt₂'
      subst hClosed
      cases closed with
      | true => exact .ok rfl hRel₂ (by omega) (by omega)
      | false =>
          exact (readItems hDecoders elem parts parts' _ s₂ s₂'
            hRel₂ (by omega) (by omega) (by omega)
            (by omega)).weaken (by omega) (by omega)

------------------------------------------------------------
-- Values
------------------------------------------------------------

theorem readNode
    (hDecoders : S.Decoders b b' d d')
    (t : NodeType)
    {parts parts' : Nat}
    (h : S.Rel s s')
    (hb : s.left ≤ b)
    (hb' : s'.left ≤ b')
    (hParts : s.left < parts)
    (hParts' : s'.left < parts') :
    S.Outcome Eq s.left s'.left
      (TreeWire.readNode t d parts s)
      (TreeWire.readNode t d' parts' s') := by
  unfold TreeWire.readNode
  apply Outcome.bind (S.expectMark (by simp) (by simp) h)
  intro _ _ s₁ s₁' _ hRel hLt hLt'
  apply Outcome.bind (S.closes (by simp) hRel)
  intro empty _ s₂ s₂' hEmpty hRel₂ hLt₂ hLt₂'
  subst hEmpty
  have hFields :
      ∀ s₃ s₃', S.Rel s₃ s₃' →
        s₃.left ≤ s₂.left → s₃'.left ≤ s₂'.left →
        S.Outcome Eq s.left s'.left
          (TreeWire.readFields t d parts s₃)
          (TreeWire.readFields t d' parts' s₃') := by
    intro s₃ s₃' hRel₃ hLe₃ hLe₃'
    exact (S.readFields hDecoders t hRel₃ (by omega) (by omega)
      (by omega) (by omega)).weaken (by omega) (by omega)
  cases t.category.tag? with
  | none =>
      cases empty with
      | true => exact .ok rfl hRel₂ (by omega) (by omega)
      | false => exact hFields s₂ s₂' hRel₂ (by omega) (by omega)
  | some tag =>
      cases empty with
      | true => exact .error (S.errors_refl _)
      | false =>
          apply Outcome.bind (S.expectVariant tag t hRel₂)
          intro _ _ s₃ s₃' _ hRel₃ hLt₃ hLt₃'
          exact hFields s₃ s₃' hRel₃ (by omega) (by omega)

theorem readSum
    (hDecoders : S.Decoders b b' d d')
    (sum : NodeSum)
    {parts parts' : Nat}
    (h : S.Rel s s')
    (hb : s.left ≤ b)
    (hb' : s'.left ≤ b')
    (hParts : s.left < parts)
    (hParts' : s'.left < parts') :
    S.Outcome Eq s.left s'.left
      (TreeWire.readSum sum d parts s)
      (TreeWire.readSum sum d' parts' s') := by
  unfold TreeWire.readSum
  apply Outcome.bind (S.expectMark (by simp) (by simp) h)
  intro _ _ s₁ s₁' _ hRel hLt hLt'
  apply Outcome.bind (S.closes (by simp) hRel)
  intro empty _ s₂ s₂' hEmpty hRel₂ hLt₂ hLt₂'
  subst hEmpty
  cases empty with
  | true => exact .error (S.errors_refl _)
  | false =>
      apply Outcome.bind (S.readTag sum.tag hRel₂)
      intro name _ s₃ s₃' hName hRel₃ hLt₃ hLt₃'
      subst hName
      cases sum.variant? name with
      | none => exact .error (S.errors_refl _)
      | some t =>
          exact (S.readFields hDecoders t hRel₃ (by omega)
            (by omega) (by omega) (by omega)).weaken
            (by omega) (by omega)

theorem readList
    (hDecoders : S.Decoders b b' d d')
    (elem : Shape)
    {parts parts' : Nat}
    (h : S.Rel s s')
    (hb : s.left ≤ b)
    (hb' : s'.left ≤ b')
    (hParts : s.left < parts)
    (hParts' : s'.left < parts') :
    S.Outcome Eq s.left s'.left
      (TreeWire.readList (d elem) parts s)
      (TreeWire.readList (d' elem) parts' s') := by
  unfold TreeWire.readList
  apply Outcome.bind (S.expectMark (by simp) (by simp) h)
  intro _ _ s₁ s₁' _ hRel hLt hLt'
  apply Outcome.bind (S.closes (by simp) hRel)
  intro empty _ s₂ s₂' hEmpty hRel₂ hLt₂ hLt₂'
  subst hEmpty
  cases empty with
  | true => exact .ok rfl hRel₂ (by omega) (by omega)
  | false =>
      apply Outcome.bind
        (S.readItems hDecoders elem parts parts' #[] s₂ s₂' hRel₂
          (by omega) (by omega) (by omega) (by omega))
      intro items _ s₃ s₃' hItems hRel₃ hLt₃ hLt₃'
      subst hItems
      exact .ok rfl hRel₃ (by omega) (by omega)

end

/-
  Decoding goes alike on both streams, whatever the levels and
  parts are, as long as they exceed what is left.  The
  induction is on the levels of the first decoder.
-/
theorem decodeWithin
    {parts parts' : Nat} :
    ∀ (levels levels' : Nat),
      levels ≤ parts → levels' ≤ parts' →
      S.Decoders levels levels'
        (TreeWire.decodeWithin parts levels)
        (TreeWire.decodeWithin parts' levels')
  | levels, levels', _, _, .scalar type, s, s', h, _, _ => by
      unfold TreeWire.decodeWithin
      apply S.nextValue_bind h
      intro t t' s₁ s₁' hAlike hRel _ hLt hLt' _ _
      rw [hAlike.ofToken_eq]
      exact .ofExcept _ hRel hLt hLt'
  | 0, _, _, _, _, _, _, _, hLevels, _ =>
      absurd hLevels (Nat.not_lt_zero _)
  | _, 0, _, _, _, _, _, _, _, hLevels' =>
      absurd hLevels' (Nat.not_lt_zero _)
  | levels + 1, levels' + 1, hParts, hParts', .node t, s, s', h,
      hLevels, hLevels' =>
      S.readNode
        (decodeWithin levels levels' (Nat.le_of_lt hParts)
          (Nat.le_of_lt hParts'))
        t h (Nat.le_of_lt_succ hLevels)
        (Nat.le_of_lt_succ hLevels')
        (Nat.lt_of_lt_of_le hLevels hParts)
        (Nat.lt_of_lt_of_le hLevels' hParts')
  | levels + 1, levels' + 1, hParts, hParts', .sum sum, s, s', h,
      hLevels, hLevels' =>
      S.readSum
        (decodeWithin levels levels' (Nat.le_of_lt hParts)
          (Nat.le_of_lt hParts'))
        sum h (Nat.le_of_lt_succ hLevels)
        (Nat.le_of_lt_succ hLevels')
        (Nat.lt_of_lt_of_le hLevels hParts)
        (Nat.lt_of_lt_of_le hLevels' hParts')
  | levels + 1, levels' + 1, hParts, hParts', .list elem, s, s',
      h, hLevels, hLevels' =>
      S.readList
        (decodeWithin levels levels' (Nat.le_of_lt hParts)
          (Nat.le_of_lt hParts'))
        elem h (Nat.le_of_lt_succ hLevels)
        (Nat.le_of_lt_succ hLevels')
        (Nat.lt_of_lt_of_le hLevels hParts)
        (Nat.lt_of_lt_of_le hLevels' hParts')

theorem decode
    (shape : Shape)
    (h : S.Rel s s') :
    S.Outcome Eq s.left s'.left
      (TreeWire.decode shape s) (TreeWire.decode shape s') :=
  S.decodeWithin _ _ (Nat.le_refl _) (Nat.le_refl _) shape s s' h
    (Nat.lt_succ_of_le (Stream.left_le_bound s))
    (Nat.lt_succ_of_le (Stream.left_le_bound s'))

theorem finish
    (h : S.Rel s s') :
    S.Outcome Eq (s.left + 1) (s'.left + 1)
      (TreeWire.finish s) (TreeWire.finish s') := by
  unfold TreeWire.finish
  rcases S.next h with
    ⟨t, t', s₁, s₁', hNext, hNext', hAlike, hRel, _⟩ |
    ⟨e, e', s₁, s₁', hNext, hNext', hErrors⟩ |
    ⟨e', s₁', hNext', hStops⟩
  · rw [nextToken_bind_ok hNext, nextToken_bind_ok hNext']
    by_cases hEof : t = .eof
    · rw [if_pos hEof, if_pos ((hAlike.eq_iff (by simp)).mp hEof)]
      exact .ok rfl hRel
        (Nat.lt_succ_of_le (Stream.left_next_le hNext))
        (Nat.lt_succ_of_le (Stream.left_next_le hNext'))
    · have hEof' : t' ≠ .eof := fun hEq =>
        hEof ((hAlike.eq_iff (by simp)).mpr hEq)
      rw [if_neg hEof, if_neg hEof', hAlike.wrongShape_eq]
      exact .error (S.errors_refl _)
  · rw [nextToken_bind_error hNext, nextToken_bind_error hNext']
    exact .error hErrors
  · rw [nextToken_bind_error hNext']
    exact .stop hStops

theorem decodeDocument
    (shape : Shape)
    (h : S.Rel s s') :
    S.Outcome Eq s.left s'.left
      (TreeWire.decodeDocument shape s)
      (TreeWire.decodeDocument shape s') := by
  unfold TreeWire.decodeDocument
  apply Outcome.bind (S.decode shape h)
  intro tree _ s₁ s₁' hTree hRel hLt hLt'
  subst hTree
  apply Outcome.bind (S.finish hRel)
  intro _ _ s₂ s₂' _ hRel₂ hLt₂ hLt₂'
  exact .ok rfl hRel₂ (by omega) (by omega)

end

end Simulation

end TreeWire
