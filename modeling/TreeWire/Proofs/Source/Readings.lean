import TreeWire.Proofs.Source.Delivery

/-
  The small readings of a decoder on a stream whose next token
  is known.

  Each reading answers to the next result of the stream alone.
  The lemmas say what it answers, so that proofs about decoders
  do not open a reading again.
-/

namespace TreeWire

variable {μ : Type} [TokenMachine μ]
variable {s s₁ s₂ : Stream μ}
variable {t : Token}
variable {e : DecodeError}

------------------------------------------------------------
-- Errors on Their Way Out
------------------------------------------------------------

namespace Reading

theorem mapError_ok
    {α σ : Type}
    {f : DecodeError → DecodeError}
    {x : Reading σ α}
    {s s₁ : σ}
    {a : α}
    (h : x s = (.ok a, s₁)) :
    mapError f x s = (.ok a, s₁) := by
  simp [mapError, h]

theorem mapError_error
    {α σ : Type}
    {f : DecodeError → DecodeError}
    {x : Reading σ α}
    {s s₁ : σ}
    {e : DecodeError}
    (h : x s = (.error e, s₁)) :
    mapError f x s = (.error (f e), s₁) := by
  simp [mapError, h]

@[simp] theorem fail_apply
    {α σ : Type}
    (cause : Cause)
    (s : σ) :
    (fail cause : Reading σ α) s = (.error (.here cause), s) :=
  rfl

@[simp] theorem ofExcept_apply
    {α σ : Type}
    (r : Except DecodeError α)
    (s : σ) :
    (ofExcept r : Reading σ α) s = (r, s) :=
  rfl

end Reading

------------------------------------------------------------
-- Marks
------------------------------------------------------------

@[simp] theorem nextToken_apply
    (s : Stream μ) :
    (nextToken : Reading (Stream μ) Token) s = s.next :=
  rfl

@[simp] theorem holdToken_apply
    (s : Stream μ)
    (t : Token) :
    (holdToken t : Reading (Stream μ) Unit) s =
      (.ok (), s.hold t) :=
  rfl

theorem nextToken_bind_ok
    {α : Type}
    {f : Token → Reading (Stream μ) α}
    (h : s.next = (.ok t, s₁)) :
    (nextToken >>= f) s = f t s₁ :=
  Action.bind_ok h

theorem nextToken_bind_error
    {α : Type}
    {f : Token → Reading (Stream μ) α}
    (h : s.next = (.error e, s₁)) :
    (nextToken >>= f) s = (.error e, s₁) :=
  Action.bind_error h

theorem expectMark_eq
    {mark : Token}
    (h : s.next = (.ok mark, s₁)) :
    expectMark mark s = (.ok (), s₁) := by
  unfold expectMark
  rw [nextToken_bind_ok h]
  simp

theorem expectMark_ne
    {mark : Token}
    (h : s.next = (.ok t, s₁))
    (hNe : t ≠ mark) :
    expectMark mark s =
      (.error (Token.wrongShape mark.kind.text t), s₁) := by
  unfold expectMark
  rw [nextToken_bind_ok h]
  simp [hNe]

theorem expectMark_error
    {mark : Token}
    (h : s.next = (.error e, s₁)) :
    expectMark mark s = (.error e, s₁) := by
  unfold expectMark
  rw [nextToken_bind_error h]

/- A mark that is expected and found comes next. -/
theorem expectMark_ok
    {mark : Token}
    {u : Unit}
    (h : expectMark mark s = (.ok u, s₁)) :
    s.next = (.ok mark, s₁) := by
  rcases Action.bind_eq_ok_iff.mp h with ⟨t, s₂, hNext, hAnswer⟩
  split at hAnswer
  · rename_i hMark
    cases hMark
    cases hAnswer
    exact hNext
  · cases hAnswer

theorem closes_eq
    {mark : Token}
    (h : s.next = (.ok mark, s₁)) :
    closes mark s = (.ok true, s₁) := by
  unfold closes
  rw [nextToken_bind_ok h]
  simp

theorem closes_ne
    {mark : Token}
    (h : s.next = (.ok t, s₁))
    (hNe : t ≠ mark) :
    closes mark s = (.ok false, s₁.hold t) := by
  unfold closes
  rw [nextToken_bind_ok h]
  simp only [hNe, if_false]
  rw [Action.bind_ok (holdToken_apply s₁ t)]
  simp

theorem closes_error
    {mark : Token}
    (h : s.next = (.error e, s₁)) :
    closes mark s = (.error e, s₁) := by
  unfold closes
  rw [nextToken_bind_error h]

/- A mark that closes is read, any other token is given back. -/
theorem closes_ok
    {mark : Token}
    {closed : Bool}
    (h : closes mark s = (.ok closed, s₂)) :
    closed = true ∧ s.next = (.ok mark, s₂) ∨
      closed = false ∧
        ∃ t s₁, s.next = (.ok t, s₁) ∧ s₂ = s₁.hold t := by
  rcases Action.bind_eq_ok_iff.mp h with ⟨t, s₁, hNext, hAnswer⟩
  split at hAnswer
  · rename_i hMark
    cases hMark
    cases hAnswer
    exact .inl ⟨rfl, hNext⟩
  · cases hAnswer
    exact .inr ⟨rfl, t, s₁, hNext, rfl⟩

------------------------------------------------------------
-- Keys and Values
------------------------------------------------------------

theorem nextKey_key
    {name : String}
    (h : s.next = (.ok (.key name), s₁)) :
    nextKey s = (.ok (some name), s₁) := by
  unfold nextKey
  rw [nextToken_bind_ok h]
  rfl

theorem nextKey_close
    (h : s.next = (.ok .objectClose, s₁)) :
    nextKey s = (.ok none, s₁) := by
  unfold nextKey
  rw [nextToken_bind_ok h]
  rfl

theorem nextKey_eof
    (h : s.next = (.ok .eof, s₁)) :
    nextKey s = (.ok none, s₁) := by
  unfold nextKey
  rw [nextToken_bind_ok h]
  rfl

theorem nextKey_other
    (h : s.next = (.ok t, s₁))
    (hKey : ∀ name, t ≠ .key name)
    (hClose : t ≠ .objectClose)
    (hEof : t ≠ .eof) :
    nextKey s = (.error (Token.wrongShape "object key" t), s₁) := by
  unfold nextKey
  rw [nextToken_bind_ok h]
  cases t with
  | key name => exact absurd rfl (hKey name)
  | objectClose => exact absurd rfl hClose
  | eof => exact absurd rfl hEof
  | _ => rfl

theorem nextKey_error
    (h : s.next = (.error e, s₁)) :
    nextKey s = (.error e, s₁) := by
  unfold nextKey
  rw [nextToken_bind_error h]

/-
  A key that is read comes next.  No key is left where an object
  closes, or at the end of the input.
-/
theorem nextKey_ok
    {name : Option String}
    (h : nextKey s = (.ok name, s₁)) :
    (∃ key, name = some key ∧ s.next = (.ok (.key key), s₁)) ∨
      name = none ∧
        (s.next = (.ok .objectClose, s₁) ∨
          s.next = (.ok .eof, s₁)) := by
  rcases Action.bind_ok_branch h with
    ⟨t, s₂, branch, hNext, hBranch, hAnswer⟩
  cases t with
  | key key =>
      subst hBranch
      cases hAnswer
      exact .inl ⟨key, rfl, hNext⟩
  | objectClose =>
      subst hBranch
      cases hAnswer
      exact .inr ⟨rfl, .inl hNext⟩
  | eof =>
      subst hBranch
      cases hAnswer
      exact .inr ⟨rfl, .inr hNext⟩
  | _ =>
      subst hBranch
      cases hAnswer

theorem nextValue_starts
    (h : s.next = (.ok t, s₁))
    (hStarts : t.startsValue = true) :
    nextValue s = (.ok t, s₁) := by
  unfold nextValue
  rw [nextToken_bind_ok h]
  simp [hStarts]

theorem nextValue_other
    (h : s.next = (.ok t, s₁))
    (hStarts : t.startsValue = false) :
    nextValue s = (.error (Token.wrongShape "value" t), s₁) := by
  unfold nextValue
  rw [nextToken_bind_ok h]
  simp [hStarts]

theorem nextValue_error
    (h : s.next = (.error e, s₁)) :
    nextValue s = (.error e, s₁) := by
  unfold nextValue
  rw [nextToken_bind_error h]

/- A value that is read starts with the next token. -/
theorem nextValue_ok
    (h : nextValue s = (.ok t, s₁)) :
    s.next = (.ok t, s₁) := by
  rcases Action.bind_eq_ok_iff.mp h with ⟨t', s₂, hNext, hAnswer⟩
  split at hAnswer
  · cases hAnswer
    exact hNext
  · cases hAnswer

------------------------------------------------------------
-- Tags
------------------------------------------------------------

theorem readTag_tag
    {tag : String}
    (h : s.next = (.ok (.key tag), s₁))
    (hValue : nextValue s₁ = (.ok t, s₂)) :
    readTag tag s = (t.readString, s₂) := by
  unfold readTag
  rw [nextToken_bind_ok h]
  simp only [if_true]
  rw [Action.bind_ok hValue]
  rfl

theorem readTag_key
    {tag name : String}
    (h : s.next = (.ok (.key name), s₁))
    (hNe : name ≠ tag) :
    readTag tag s =
      (.error (.here
        (.misplacedTag tag ("key \"" ++ name ++ "\""))), s₁) := by
  unfold readTag
  rw [nextToken_bind_ok h]
  simp [hNe]

theorem readTag_other
    {tag : String}
    (h : s.next = (.ok t, s₁))
    (hKey : ∀ name, t ≠ .key name) :
    readTag tag s =
      (.error (.here (.misplacedTag tag t.kind.text)), s₁) := by
  unfold readTag
  rw [nextToken_bind_ok h]
  cases t with
  | key name => exact absurd rfl (hKey name)
  | _ => rfl

theorem readTag_error
    {tag : String}
    (h : s.next = (.error e, s₁)) :
    readTag tag s = (.error e, s₁) := by
  unfold readTag
  rw [nextToken_bind_error h]

theorem readString_ok
    {name : String}
    (h : t.readString = .ok name) :
    t = .literal ⟨.string, name⟩ := by
  unfold Token.readString Token.literalText at h
  split at h
  · rename_i lit
    rcases lit with ⟨kind, text⟩
    split at h
    · rename_i hKind
      cases hKind
      cases h
      rfl
    · cases h
  · cases h

/- A name that is read stands in a tag, as a string. -/
theorem readTag_ok
    {tag name : String}
    (h : readTag tag s = (.ok name, s₂)) :
    ∃ s₁,
      s.next = (.ok (.key tag), s₁) ∧
        s₁.next = (.ok (.literal ⟨.string, name⟩), s₂) := by
  rcases Action.bind_eq_ok_iff.mp h with ⟨t, s₁, hNext, hTag⟩
  cases t with
  | key key =>
      dsimp only at hTag
      split at hTag
      · rename_i hKey
        cases hKey
        rcases Action.bind_eq_ok_iff.mp hTag with
          ⟨u, s₃, hValue, hText⟩
        have hString : u.readString = .ok name :=
          congrArg Prod.fst hText
        cases readString_ok hString
        cases hText
        exact ⟨s₁, hNext, nextValue_ok hValue⟩
      · cases hTag
  | _ => cases hTag

end TreeWire
