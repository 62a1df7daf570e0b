import TreeWire.Proofs.Json.Tokens
import TreeWire.Proofs.Node.Failures

/-
  Two runs of a decoder that go in lockstep.

  A lockstep relates the states of two sources that deliver the
  same tokens.  It counts the tokens that are still to come and
  the containers that are open, and says what holds after a
  reading and what holds after a failure.  Decoding carries this
  through: both runs give the same tree, or fail with the same
  error.

  The runs may have different numbers of levels and parts, and
  do different things where their levels are used up.  As long as
  there are more parts than tokens to come, and more levels than
  containers that may still open, none of this matters: no part
  and no level is ever missing.

  Key definitions include:
    * `Together`
    * `Lockstep`
    * `decodeCut`

  Main statements:
    * `Together.bind`
    * `Lockstep.decodeCut`
    * `Lockstep.decode`
-/

namespace TreeWire

------------------------------------------------------------
-- Errors of Values
------------------------------------------------------------

/- A cause that lies in the value, not in the input itself. -/
def Cause.OfValue : Cause → Prop
  | .malformed _ _ => False
  | .unreadable _ => False
  | _ => True

theorem Token.literalText_error
    {kind : LiteralKind}
    {t : Token}
    {e : DecodeError}
    (h : t.literalText kind = .error e) :
    e.cause.OfValue := by
  rw [literalText_eq_error h]
  trivial

theorem ScalarType.ofToken_error
    {type : ScalarType}
    {t : Token}
    {e : DecodeError}
    (h : type.ofToken t = .error e) :
    e.cause.OfValue := by
  rcases ofToken_eq_error h with rfl | ⟨text, rfl | rfl⟩ <;> trivial

theorem NodeType.ofMembers_error
    {t : NodeType}
    {members : List (String × Tree)}
    {e : DecodeError}
    (h : t.ofMembers members = .error e) :
    e.cause.OfValue := by
  rw [← List.reverse_reverse members, ofMembers_eq_error_iff] at h
  rcases h with ⟨_, _, _, _, _, _, rfl⟩
  trivial

------------------------------------------------------------
-- Results That Go Together
------------------------------------------------------------

/-
  Two runs give the same value and leave certain states, or fail
  with the same error and leave others.
-/
inductive Together
    {σ τ α : Type}
    (Fails : DecodeError → σ → τ → Prop)
    (Post : α → σ → τ → Prop) :
    Except DecodeError α × σ →
    Except DecodeError α × τ → Prop where
  | ok
      {a : α}
      {s : σ}
      {s' : τ}
      (hPost : Post a s s') :
      Together Fails Post (.ok a, s) (.ok a, s')
  | error
      {e : DecodeError}
      {s : σ}
      {s' : τ}
      (hFails : Fails e s s') :
      Together Fails Post (.error e, s) (.error e, s')

namespace Together

variable {σ τ α β : Type}
variable {Fails : DecodeError → σ → τ → Prop}
variable {Post : α → σ → τ → Prop}
variable {Post' : β → σ → τ → Prop}

theorem bind
    {x : Reading σ α}
    {y : Reading τ α}
    {f : α → Reading σ β}
    {g : α → Reading τ β}
    {s : σ}
    {s' : τ}
    (h : Together Fails Post (x s) (y s'))
    (hRest :
      ∀ a s₁ s₁', Post a s₁ s₁' →
        Together Fails Post' (f a s₁) (g a s₁')) :
    Together Fails Post' ((x >>= f) s) ((y >>= g) s') := by
  generalize hx : x s = out at h
  generalize hy : y s' = out' at h
  cases h with
  | ok hPost =>
      rw [Action.bind_ok hx, Action.bind_ok hy]
      exact hRest _ _ _ hPost
  | error hFails =>
      rw [Action.bind_error hx, Action.bind_error hy]
      exact .error hFails

theorem weaken
    {Post' : α → σ → τ → Prop}
    {out : Except DecodeError α × σ}
    {out' : Except DecodeError α × τ}
    (h : Together Fails Post out out')
    (hPost : ∀ a s s', Post a s s' → Post' a s s') :
    Together Fails Post' out out' := by
  cases h with
  | ok h => exact .ok (hPost _ _ _ h)
  | error hFails => exact .error hFails

end Together

------------------------------------------------------------
-- Locksteps
------------------------------------------------------------

/-
  What holds after a token is taken, when so many were to come
  and so many containers were open before it.  The token can be
  given back.
-/
structure Taken
    {σ τ : Type}
    [TokenSource σ]
    [TokenSource τ]
    (Ready : Nat → Nat → σ → τ → Prop)
    (Idle : σ → τ → Prop)
    (n k : Nat)
    (t : Token)
    (s : σ)
    (s' : τ) : Prop where
  idle : Idle s s'
  again : Ready n k (TokenSource.hold s t) (TokenSource.hold s' t)
  eof : t = .eof → Ready n k s s'
  other : t ≠ .eof → ∃ m, m < n ∧ Ready m (t.nest k) s s'

/-
  Related states of two sources.  `Ready n k` says that at most
  `n` tokens are to come before the end and at least `k`
  containers are open, of which there are never more than the
  limit.  `Idle` is what holds after each reading, and `Fails`
  what holds after an error.
-/
structure Lockstep
    (σ τ : Type)
    [TokenSource σ]
    [TokenSource τ] where
  limit : Nat
  Ready : Nat → Nat → σ → τ → Prop
  Idle : σ → τ → Prop
  Fails : DecodeError → σ → τ → Prop
  mono :
    ∀ {n n' k k' s s'}, n ≤ n' → k' ≤ k →
      Ready n k s s' → Ready n' k' s s'
  depth_le : ∀ {n k s s'}, Ready n k s s' → k ≤ limit
  next :
    ∀ {n k s s'}, Ready n k s s' →
      Together Fails (Taken Ready Idle n k)
        (TokenSource.next s) (TokenSource.next s')
  fails_value :
    ∀ {e s s'}, Idle s s' → e.cause.OfValue → Fails e s s'
  fails_hop :
    ∀ {e s s'} (hop : Hop), Fails e s s' →
      Fails ⟨e.cause, hop :: e.path⟩ s s'

namespace Lockstep

variable {σ τ : Type} [TokenSource σ] [TokenSource τ]

/- Both runs are related in a lockstep. -/
abbrev Outcome
    (L : Lockstep σ τ)
    {α : Type}
    (Post : α → σ → τ → Prop) :
    Except DecodeError α × σ →
    Except DecodeError α × τ → Prop :=
  Together L.Fails Post

/- A token has been read, and so many are to come. -/
structure Rested
    (L : Lockstep σ τ)
    (n k : Nat)
    (s : σ)
    (s' : τ) : Prop where
  idle : L.Idle s s'
  ready : L.Ready n k s s'

/- At least one of the tokens that were to come has been read. -/
def Past
    (L : Lockstep σ τ)
    (n k : Nat)
    (s : σ)
    (s' : τ) : Prop :=
  ∃ m, m < n ∧ L.Rested m k s s'

variable {L : Lockstep σ τ}
variable {s : σ} {s' : τ}
variable {n n' k : Nat}

theorem Past.mono
    (h : L.Past n k s s')
    (hLe : n ≤ n') :
    L.Past n' k s s' := by
  rcases h with ⟨m, hLt, hRested⟩
  exact ⟨m, Nat.lt_of_lt_of_le hLt hLe, hRested⟩

theorem Past.rested
    (h : L.Past n k s s') :
    L.Rested n k s s' := by
  rcases h with ⟨m, hLt, hIdle, hReady⟩
  exact ⟨hIdle, L.mono (Nat.le_of_lt hLt) (Nat.le_refl k) hReady⟩

/- Any token but the end has been read. -/
theorem past_of_taken
    {t : Token}
    {depth : Nat}
    (h : Taken L.Ready L.Idle n k t s s')
    (hEof : t ≠ .eof)
    (hDepth : depth ≤ t.nest k) :
    L.Past n depth s s' := by
  rcases h.other hEof with ⟨m, hLt, hReady⟩
  exact ⟨m, hLt, h.idle, L.mono (Nat.le_refl m) hDepth hReady⟩

------------------------------------------------------------
-- Small Readings
------------------------------------------------------------

/- The value itself is wrong. -/
theorem fail
    {α : Type}
    {Post : α → σ → τ → Prop}
    {e : DecodeError}
    (hIdle : L.Idle s s')
    (hCause : e.cause.OfValue) :
    L.Outcome Post
      ((throw e : Reading σ α) s) ((throw e : Reading τ α) s') :=
  .error (L.fails_value hIdle hCause)

theorem ofExcept
    {α : Type}
    {Post : α → σ → τ → Prop}
    {result : Except DecodeError α}
    (hIdle : L.Idle s s')
    (hError : ∀ {e}, result = .error e → e.cause.OfValue)
    (hOk : ∀ a, Post a s s') :
    L.Outcome Post
      ((Reading.ofExcept result : Reading σ α) s)
      ((Reading.ofExcept result : Reading τ α) s') := by
  cases result with
  | ok a => exact .ok (hOk a)
  | error e => exact L.fail hIdle (hError rfl)

theorem mapError
    {α : Type}
    {Post : α → σ → τ → Prop}
    {x : Reading σ α}
    {y : Reading τ α}
    (hop : Hop)
    (h : L.Outcome Post (x s) (y s')) :
    L.Outcome Post
      (Reading.mapError
        (fun e => ⟨e.cause, hop :: e.path⟩) x s)
      (Reading.mapError
        (fun e => ⟨e.cause, hop :: e.path⟩) y s') := by
  generalize hx : x s = out at h
  generalize hy : y s' = out' at h
  cases h with
  | ok hPost =>
      rw [Reading.mapError_ok hx, Reading.mapError_ok hy]
      exact .ok hPost
  | error hFails =>
      rw [Reading.mapError_error hx, Reading.mapError_error hy]
      exact .error (L.fails_hop hop hFails)

/- A mark that opens a container. -/
theorem expectMark
    {mark : Token}
    (hOpens : mark.opens = true)
    (h : L.Ready n k s s') :
    L.Outcome (fun _ => L.Past n (k + 1))
      (TreeWire.expectMark mark s) (TreeWire.expectMark mark s') := by
  unfold TreeWire.expectMark
  apply (L.next h).bind
  intro t s₁ s₁' hTaken
  by_cases hMark : t = mark
  · subst hMark
    rw [if_pos rfl, if_pos rfl]
    apply Together.ok
    apply past_of_taken hTaken
    · intro hEof
      cases hEof
      cases hOpens
    · rw [Token.nest_of_opens hOpens]
  · rw [if_neg hMark, if_neg hMark]
    exact L.fail hTaken.idle trivial

/- A mark that closes a container, or what comes in its place. -/
def Closed
    (L : Lockstep σ τ)
    (n k : Nat) : Bool → σ → τ → Prop
  | true => L.Past n k
  | false => L.Ready n (k + 1)

theorem closes
    {mark : Token}
    (hMark : mark = .objectClose ∨ mark = .arrayClose)
    (h : L.Ready n (k + 1) s s') :
    L.Outcome (L.Closed n k)
      (TreeWire.closes mark s) (TreeWire.closes mark s') := by
  unfold TreeWire.closes
  apply (L.next h).bind
  intro t s₁ s₁' hTaken
  by_cases hEq : t = mark
  · subst hEq
    rw [if_pos rfl, if_pos rfl]
    apply Together.ok
    rcases hMark with rfl | rfl <;>
      exact past_of_taken hTaken nofun (Nat.le_refl k)
  · rw [if_neg hEq, if_neg hEq]
    exact .ok hTaken.again

/- A key, or the end of the members. -/
def KeyRead
    (L : Lockstep σ τ)
    (n k : Nat) : Option String → σ → τ → Prop
  | none => L.Rested n k
  | some _ => L.Past n (k + 1)

theorem nextKey
    (h : L.Ready n (k + 1) s s') :
    L.Outcome (L.KeyRead n k)
      (TreeWire.nextKey s) (TreeWire.nextKey s') := by
  unfold TreeWire.nextKey
  apply (L.next h).bind
  intro t s₁ s₁' hTaken
  cases t with
  | key name =>
      exact .ok (past_of_taken hTaken nofun (Nat.le_refl _))
  | objectClose =>
      exact .ok (past_of_taken hTaken nofun (Nat.le_refl k)).rested
  | eof =>
      apply Together.ok
      exact ⟨hTaken.idle,
        L.mono (Nat.le_refl n) (Nat.le_succ k) (hTaken.eof rfl)⟩
  | _ => exact L.fail hTaken.idle trivial

/- The token of a value, which may be given back. -/
def ValueRead
    (L : Lockstep σ τ)
    (n k : Nat)
    (t : Token)
    (s : σ)
    (s' : τ) : Prop :=
  L.Past n k s s' ∧
    L.Ready n k (TokenSource.hold s t) (TokenSource.hold s' t)

theorem nextValue
    (h : L.Ready n k s s') :
    L.Outcome (L.ValueRead n k)
      (TreeWire.nextValue s) (TreeWire.nextValue s') := by
  unfold TreeWire.nextValue
  apply (L.next h).bind
  intro t s₁ s₁' hTaken
  cases t with
  | literal lit =>
      exact .ok ⟨past_of_taken hTaken nofun (Nat.le_refl k),
        hTaken.again⟩
  | objectOpen | arrayOpen =>
      exact .ok ⟨past_of_taken hTaken nofun (Nat.le_succ k),
        hTaken.again⟩
  | _ => exact L.fail hTaken.idle trivial

/- A tag and its value. -/
theorem readTag
    (tag : String)
    (h : L.Ready n k s s') :
    L.Outcome (fun _ => L.Past n k)
      (TreeWire.readTag tag s) (TreeWire.readTag tag s') := by
  unfold TreeWire.readTag
  apply (L.next h).bind
  intro t s₁ s₁' hTaken
  cases t with
  | key name =>
      dsimp only
      split
      · rcases hTaken.other nofun with ⟨m, hLt, hReady⟩
        apply (L.nextValue hReady).bind
        intro u s₂ s₂' hValue
        have hPast := hValue.1.mono (Nat.le_of_lt hLt)
        exact L.ofExcept hPast.rested.idle Token.literalText_error
          fun _ => hPast
      · exact L.fail hTaken.idle trivial
  | _ => exact L.fail hTaken.idle trivial

theorem expectVariant
    (tag : String)
    (t : NodeType)
    (h : L.Ready n k s s') :
    L.Outcome (fun _ => L.Past n k)
      (TreeWire.expectVariant tag t s)
      (TreeWire.expectVariant tag t s') := by
  unfold TreeWire.expectVariant
  apply (L.readTag tag h).bind
  intro found s₁ s₁' hPast
  by_cases hName : found = t.name
  · rw [if_pos hName, if_pos hName]
    exact .ok hPast
  · rw [if_neg hName, if_neg hName]
    exact L.fail hPast.rested.idle trivial

------------------------------------------------------------
-- Members and Elements
------------------------------------------------------------

section

variable {d : Shape → Reading σ Tree}
variable {d' : Shape → Reading τ Tree}
variable {room size : Nat}

/-
  Two decoders go in lockstep as long as fewer tokens than so
  many are to come, and fewer containers than so many may still
  open.  They read a token if they succeed.
-/
def Decoders
    (L : Lockstep σ τ)
    (room size : Nat)
    (d : Shape → Reading σ Tree)
    (d' : Shape → Reading τ Tree) : Prop :=
  ∀ shape {n k s s'},
    L.Ready n k s s' → n < size → L.limit < room + k →
      L.Outcome (fun _ => L.Past n k) (d shape s) (d' shape s')

/- The value of a member whose first token is read already. -/
theorem heldMember
    (hDecoders : L.Decoders room size d d')
    (shape : Shape)
    {t : Token}
    (h : L.ValueRead n k t s s')
    (hSize : n < size)
    (hRoom : L.limit < room + k) :
    L.Outcome (fun _ => L.Past n k)
      ((match shape with
        | .scalar type => Reading.ofExcept (type.ofToken t)
        | shape => do
            holdToken t
            d shape : Reading σ Tree) s)
      ((match shape with
        | .scalar type => Reading.ofExcept (type.ofToken t)
        | shape => do
            holdToken t
            d' shape : Reading τ Tree) s') := by
  rcases h with ⟨hPast, hHeld⟩
  have hValue := fun shape => hDecoders shape hHeld hSize hRoom
  cases shape with
  | scalar type =>
      exact L.ofExcept hPast.rested.idle ScalarType.ofToken_error
        fun _ => hPast
  | node t => exact hValue (.node t)
  | sum sum => exact hValue (.sum sum)
  | list elem => exact hValue (.list elem)

theorem readMember
    (hDecoders : L.Decoders room size d d')
    (t : NodeType)
    (key : String)
    (h : L.Rested n k s s')
    (hSize : n < size)
    (hRoom : L.limit < room + k) :
    L.Outcome (fun _ => L.Past n k)
      (TreeWire.readMember t d key s)
      (TreeWire.readMember t d' key s') := by
  unfold TreeWire.readMember
  split
  · apply (L.nextValue h.ready).bind
    intro u s₁ s₁' hValue
    cases t.field? key with
    | none => exact L.fail hValue.1.rested.idle trivial
    | some f =>
        apply L.mapError
        exact L.heldMember hDecoders f.shape hValue hSize hRoom
  · cases t.field? key with
    | none => exact L.fail h.idle trivial
    | some f =>
        apply L.mapError
        exact hDecoders f.shape h.ready hSize hRoom

/- The induction is on the parts of the first decoder. -/
theorem readMembers
    (hDecoders : L.Decoders room size d d')
    (t : NodeType)
    (hRoom : L.limit < room + (k + 1)) :
    ∀ {n parts parts' : Nat}
      (members : List (String × Tree))
      {s : σ}
      {s' : τ},
      L.Ready n (k + 1) s s' →
      n < size → n < parts → n < parts' →
      L.Outcome (fun _ => L.Rested n k)
        (TreeWire.readMembers t d parts members s)
        (TreeWire.readMembers t d' parts' members s')
  | _, 0, _, _, _, _, _, _, hParts, _ =>
      absurd hParts (Nat.not_lt_zero _)
  | _, _, 0, _, _, _, _, _, _, hParts' =>
      absurd hParts' (Nat.not_lt_zero _)
  | n, parts + 1, parts' + 1, members, s, s', h, hSize, hParts,
      hParts' => by
      unfold TreeWire.readMembers
      apply (L.nextKey h).bind
      intro key s₁ s₁' hKey
      cases key with
      | none => exact .ok hKey
      | some key =>
          rcases hKey with ⟨m, hLt, hRested⟩
          apply (L.readMember hDecoders t key hRested (by omega)
            hRoom).bind
          intro value s₂ s₂' hPast
          have hReady := hPast.rested.ready
          apply (readMembers hDecoders t hRoom _ hReady (by omega)
            (by omega) (by omega)).weaken
          intro _ s₃ s₃' hLast
          exact ⟨hLast.idle,
            L.mono (Nat.le_of_lt hLt) (Nat.le_refl k) hLast.ready⟩

theorem readFields
    {parts parts' : Nat}
    (hDecoders : L.Decoders room size d d')
    (t : NodeType)
    (h : L.Ready n (k + 1) s s')
    (hRoom : L.limit < room + (k + 1))
    (hSize : n < size)
    (hParts : n < parts)
    (hParts' : n < parts') :
    L.Outcome (fun _ => L.Rested n k)
      (TreeWire.readFields t d parts s)
      (TreeWire.readFields t d' parts' s') := by
  unfold TreeWire.readFields
  apply (L.readMembers hDecoders t hRoom [] h hSize hParts
    hParts').bind
  intro members s₁ s₁' hRested
  exact L.ofExcept hRested.idle NodeType.ofMembers_error
    fun _ => hRested

/-
  The induction is on the parts of the first decoder: an element
  that is read takes a token.
-/
theorem readItems
    (hDecoders : L.Decoders room size d d')
    (elem : Shape)
    (hRoom : L.limit < room + (k + 1)) :
    ∀ {n parts parts' : Nat}
      (items : Array Tree)
      {s : σ}
      {s' : τ},
      L.Ready n (k + 1) s s' →
      n < size → n < parts → n < parts' →
      L.Outcome (fun _ => L.Past n k)
        (TreeWire.readItems (d elem) parts items s)
        (TreeWire.readItems (d' elem) parts' items s')
  | _, 0, _, _, _, _, _, _, hParts, _ =>
      absurd hParts (Nat.not_lt_zero _)
  | _, _, 0, _, _, _, _, _, _, hParts' =>
      absurd hParts' (Nat.not_lt_zero _)
  | n, parts + 1, parts' + 1, items, s, s', h, hSize, hParts,
      hParts' => by
      unfold TreeWire.readItems
      apply (L.mapError (.index items.size)
        (hDecoders elem h hSize hRoom)).bind
      intro item s₁ s₁' hItem
      rcases hItem with ⟨m, hLt, hRested⟩
      apply (L.closes (.inr rfl) hRested.ready).bind
      intro closed s₂ s₂' hClosed
      cases closed with
      | true => exact .ok (hClosed.mono (Nat.le_of_lt hLt))
      | false =>
          apply (readItems hDecoders elem hRoom _ hClosed (by omega)
            (by omega) (by omega)).weaken
          intro _ _ _ hLast
          exact hLast.mono (Nat.le_of_lt hLt)

------------------------------------------------------------
-- Values
------------------------------------------------------------

variable {parts parts' : Nat}

/- The opening mark of a container, and whether it is empty. -/
theorem opening
    {α : Type}
    {Post : α → σ → τ → Prop}
    {mark close : Token}
    {f : Bool → Reading σ α}
    {g : Bool → Reading τ α}
    (hOpens : mark.opens = true)
    (hClose : close = .objectClose ∨ close = .arrayClose)
    (h : L.Ready n k s s')
    (hEmpty :
      ∀ s₁ s₁', L.Past n k s₁ s₁' →
        L.Outcome Post (f true s₁) (g true s₁'))
    (hRest :
      ∀ m s₁ s₁', m < n → L.Ready m (k + 1) s₁ s₁' →
        L.Outcome Post (f false s₁) (g false s₁')) :
    L.Outcome Post
      ((do
        TreeWire.expectMark mark
        let empty ← TreeWire.closes close
        f empty : Reading σ α) s)
      ((do
        TreeWire.expectMark mark
        let empty ← TreeWire.closes close
        g empty : Reading τ α) s') := by
  apply (L.expectMark hOpens h).bind
  intro _ s₁ s₁' hPast
  rcases hPast with ⟨m, hLt, hRested⟩
  apply (L.closes hClose hRested.ready).bind
  intro empty s₂ s₂' hClosed
  cases empty with
  | true => exact hEmpty s₂ s₂' (hClosed.mono (Nat.le_of_lt hLt))
  | false => exact hRest m s₂ s₂' hLt hClosed

/- The fields of a node, behind its opening mark or its tag. -/
theorem fieldsWithin
    {m : Nat}
    (hDecoders : L.Decoders room size d d')
    (t : NodeType)
    (h : L.Ready m (k + 1) s s')
    (hLt : m < n)
    (hRoom : L.limit < room + 1 + k)
    (hSize : n < size)
    (hParts : size ≤ parts)
    (hParts' : size ≤ parts') :
    L.Outcome (fun _ => L.Past n k)
      (TreeWire.readFields t d parts s)
      (TreeWire.readFields t d' parts' s') := by
  apply (L.readFields hDecoders t h (by omega) (by omega) (by omega)
    (by omega)).weaken
  intro _ _ _ hRested
  exact ⟨m, hLt, hRested⟩

theorem readNode
    (hDecoders : L.Decoders room size d d')
    (t : NodeType)
    (h : L.Ready n k s s')
    (hRoom : L.limit < room + 1 + k)
    (hSize : n < size)
    (hParts : size ≤ parts)
    (hParts' : size ≤ parts') :
    L.Outcome (fun _ => L.Past n k)
      (TreeWire.readNode t d parts s)
      (TreeWire.readNode t d' parts' s') := by
  unfold TreeWire.readNode
  apply L.opening rfl (.inl rfl) h
  · intro s₁ s₁' hPast
    cases t.category.tag? with
    | none => exact .ok hPast
    | some tag => exact L.fail hPast.rested.idle trivial
  · intro m s₁ s₁' hLt hReady
    cases t.category.tag? with
    | none =>
        exact L.fieldsWithin hDecoders t hReady hLt hRoom hSize
          hParts hParts'
    | some tag =>
        apply (L.expectVariant tag t hReady).bind
        intro _ s₂ s₂' hPast
        exact L.fieldsWithin hDecoders t hPast.rested.ready hLt
          hRoom hSize hParts hParts'

theorem readSum
    (hDecoders : L.Decoders room size d d')
    (sum : NodeSum)
    (h : L.Ready n k s s')
    (hRoom : L.limit < room + 1 + k)
    (hSize : n < size)
    (hParts : size ≤ parts)
    (hParts' : size ≤ parts') :
    L.Outcome (fun _ => L.Past n k)
      (TreeWire.readSum sum d parts s)
      (TreeWire.readSum sum d' parts' s') := by
  unfold TreeWire.readSum
  apply L.opening rfl (.inl rfl) h
  · intro s₁ s₁' hPast
    exact L.fail hPast.rested.idle trivial
  · intro m s₁ s₁' hLt hReady
    apply (L.readTag sum.tag hReady).bind
    intro name s₂ s₂' hPast
    cases sum.variant? name with
    | none => exact L.fail hPast.rested.idle trivial
    | some t =>
        exact L.fieldsWithin hDecoders t hPast.rested.ready hLt
          hRoom hSize hParts hParts'

theorem readList
    (hDecoders : L.Decoders room size d d')
    (elem : Shape)
    (h : L.Ready n k s s')
    (hRoom : L.limit < room + 1 + k)
    (hSize : n < size)
    (hParts : size ≤ parts)
    (hParts' : size ≤ parts') :
    L.Outcome (fun _ => L.Past n k)
      (TreeWire.readList (d elem) parts s)
      (TreeWire.readList (d' elem) parts' s') := by
  unfold TreeWire.readList
  apply L.opening rfl (.inr rfl) h
  · intro s₁ s₁' hPast
    exact .ok hPast
  · intro m s₁ s₁' hLt hReady
    apply (L.readItems hDecoders elem (by omega) #[] hReady
      (by omega) (by omega) (by omega)).bind
    intro items s₂ s₂' hPast
    exact .ok (hPast.mono (Nat.le_of_lt hLt))

end

end Lockstep

------------------------------------------------------------
-- Whole Decoders
------------------------------------------------------------

/-
  Decode a value of a shape, and do something else in place of a
  node or list that lies deeper than so many levels.
-/
def decodeCut
    {σ : Type}
    [TokenSource σ]
    (cut : Shape → Reading σ Tree)
    (parts : Nat) :
    (levels : Nat) →
    (shape : Shape) →
    Reading σ Tree
  | _, .scalar type => do
      let token ← nextValue
      Reading.ofExcept (type.ofToken token)
  | 0, shape =>
      cut shape
  | levels + 1, .node t =>
      readNode t (decodeCut cut parts levels) parts
  | levels + 1, .sum sum =>
      readSum sum (decodeCut cut parts levels) parts
  | levels + 1, .list elem =>
      readList (decodeCut cut parts levels elem) parts

/- The decoder fails where its levels are used up. -/
theorem decodeWithin_eq_decodeCut
    {σ : Type}
    [TokenSource σ]
    (parts levels : Nat) :
    (decodeWithin parts levels : Shape → Reading σ Tree) =
      decodeCut (fun _ => exhausted) parts levels := by
  induction levels with
  | zero =>
      funext shape
      cases shape <;> rfl
  | succ levels ih =>
      funext shape
      cases shape with
      | scalar type => rfl
      | node t => rw [decodeWithin, decodeCut, ih]
      | sum sum => rw [decodeWithin, decodeCut, ih]
      | list elem => rw [decodeWithin, decodeCut, ih]

theorem decode_eq_decodeCut
    {σ : Type}
    [TokenSource σ]
    (shape : Shape)
    (s : σ) :
    decode shape s =
      decodeCut (fun _ => exhausted) (TokenSource.bound s + 1)
        (TokenSource.bound s + 1) shape s := by
  rw [← decodeWithin_eq_decodeCut]
  rfl

namespace Lockstep

variable {σ τ : Type} [TokenSource σ] [TokenSource τ]
variable {L : Lockstep σ τ}
variable {s : σ} {s' : τ}
variable {n k : Nat}

/-
  Decoding goes in lockstep, whatever is done where levels are
  used up: there is always one left.  The induction is on the
  containers that may still open.
-/
theorem decodeCut
    {cut : Shape → Reading σ Tree}
    {cut' : Shape → Reading τ Tree}
    {size parts parts' : Nat}
    (hParts : size ≤ parts)
    (hParts' : size ≤ parts') :
    ∀ {room levels levels' : Nat},
      room ≤ levels → room ≤ levels' →
      L.Decoders room size (TreeWire.decodeCut cut parts levels)
        (TreeWire.decodeCut cut' parts' levels')
  | _, _, _, _, _, .scalar type, n, k, s, s', h, _, _ => by
      unfold TreeWire.decodeCut
      apply (L.nextValue h).bind
      intro t s₁ s₁' hValue
      exact L.ofExcept hValue.1.rested.idle ScalarType.ofToken_error
        fun _ => hValue.1
  | 0, _, _, _, _, _, _, k, _, _, h, _, hRoom => by
      have hDepth := L.depth_le h
      omega
  | room + 1, levels + 1, levels' + 1, hLevels, hLevels', .node t,
      _, _, _, _, h, hSize, hRoom =>
      L.readNode
        (decodeCut hParts hParts' (Nat.le_of_succ_le_succ hLevels)
          (Nat.le_of_succ_le_succ hLevels'))
        t h hRoom hSize hParts hParts'
  | room + 1, levels + 1, levels' + 1, hLevels, hLevels', .sum sum,
      _, _, _, _, h, hSize, hRoom =>
      L.readSum
        (decodeCut hParts hParts' (Nat.le_of_succ_le_succ hLevels)
          (Nat.le_of_succ_le_succ hLevels'))
        sum h hRoom hSize hParts hParts'
  | room + 1, levels + 1, levels' + 1, hLevels, hLevels', .list elem,
      _, _, _, _, h, hSize, hRoom =>
      L.readList
        (decodeCut hParts hParts' (Nat.le_of_succ_le_succ hLevels)
          (Nat.le_of_succ_le_succ hLevels'))
        elem h hRoom hSize hParts hParts'

/- The levels and parts of a decoder come from its source. -/
theorem decode
    (shape : Shape)
    (h : L.Ready n k s s')
    (hBound : n ≤ TokenSource.bound s)
    (hBound' : n ≤ TokenSource.bound s')
    (hRoom : L.limit ≤ n + k) :
    L.Outcome (fun _ => L.Past n k)
      (TreeWire.decode shape s) (TreeWire.decode shape s') := by
  have hLevels := Nat.succ_le_succ hBound
  have hLevels' := Nat.succ_le_succ hBound'
  rw [decode_eq_decodeCut, decode_eq_decodeCut]
  apply L.decodeCut hLevels hLevels' hLevels hLevels' shape h
  · exact Nat.lt_succ_self n
  · omega

theorem finish
    (h : L.Ready n k s s') :
    L.Outcome (fun _ => L.Idle)
      (TreeWire.finish s) (TreeWire.finish s') := by
  unfold TreeWire.finish
  apply (L.next h).bind
  intro t s₁ s₁' hTaken
  by_cases hEof : t = .eof
  · rw [if_pos hEof, if_pos hEof]
    exact .ok hTaken.idle
  · rw [if_neg hEof, if_neg hEof]
    exact L.fail hTaken.idle trivial

theorem decodeDocument
    (shape : Shape)
    (h : L.Ready n k s s')
    (hBound : n ≤ TokenSource.bound s)
    (hBound' : n ≤ TokenSource.bound s')
    (hRoom : L.limit ≤ n + k) :
    L.Outcome (fun _ => L.Idle)
      (TreeWire.decodeDocument shape s)
      (TreeWire.decodeDocument shape s') := by
  unfold TreeWire.decodeDocument
  apply (L.decode shape h hBound hBound' hRoom).bind
  intro tree s₁ s₁' hPast
  apply (L.finish hPast.rested.ready).bind
  intro _ s₂ s₂' hIdle
  exact .ok hIdle

end Lockstep

end TreeWire
