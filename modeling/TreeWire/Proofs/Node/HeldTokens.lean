import TreeWire.Proofs.Node.Lockstep
import TreeWire.Proofs.Source.ScannedDocuments
import TreeWire.Proofs.Source.Walking

/-
  The slot for a token that is given back.

  A watched stream behaves like the stream in it, and notes
  whether a token is ever given back while the slot is in use, or
  a token other than the one just delivered.

  A caller decodes values and checks for the end, in any order
  and also after a failure.  None of this is ever noted, whatever
  the tokens are and whatever the slot held at first, and the
  slot is empty whenever a call returns.

  Key definitions include:
    * `Watched`
    * `Call`
    * `runCalls`
    * `Stream.KeepsSlot`

  Main statements:
    * `Watched.call`
    * `Watched.calls`
    * `decoders_keep_slot`
-/

namespace TreeWire

------------------------------------------------------------
-- Watched Streams
------------------------------------------------------------

/-
  A stream, the token that it has just delivered, and whether it
  was ever given a token back that it should not have been.
-/
structure Watched (μ : Type) where
  stream : Stream μ
  latest : Option Token
  misused : Bool

namespace Watched

variable {μ : Type}

/- A stream before it is watched. -/
def start
    (s : Stream μ) : Watched μ :=
  ⟨s, none, false⟩

/- Take a token back, and note if the slot is misused. -/
def hold
    (w : Watched μ)
    (t : Token) : Watched μ :=
  ⟨w.stream.hold t, none,
    w.misused || w.stream.held.isSome || w.latest ≠ some t⟩

variable [TokenMachine μ]

/- Read the next token, and keep it in mind. -/
def next
    (w : Watched μ) : Except DecodeError Token × Watched μ :=
  match w.stream.next with
  | (.ok t, s) => (.ok t, ⟨s, some t, w.misused⟩)
  | (.error e, s) => (.error e, ⟨s, none, w.misused⟩)

instance : TokenSource (Watched μ) where
  next := next
  hold := hold
  bound := fun w => w.stream.bound

------------------------------------------------------------
-- Watching a Decoder
------------------------------------------------------------

/- A stream that is watched, beside the same stream. -/
structure Watches
    (w : Watched μ)
    (s : Stream μ) : Prop where
  stream : w.stream = s
  kept : w.misused = false

/- A stream that is watched and whose slot is empty. -/
structure WatchesEmpty
    (w : Watched μ)
    (s : Stream μ) : Prop where
  watches : Watches w s
  empty : s.held = none

variable {w : Watched μ} {s s₁ : Stream μ}

/- The token just delivered can be given back to an empty slot. -/
theorem watches_hold
    {t : Token}
    (hNext : s.next = (.ok t, s₁)) :
    Watches (hold ⟨s₁, some t, false⟩ t) (s₁.hold t) := by
  refine ⟨rfl, ?_⟩
  simp [hold, Stream.held_of_next hNext]

/- A watched stream, with so many tokens left at most. -/
structure WatchesWithin
    (limit n k : Nat)
    (w : Watched μ)
    (s : Stream μ) : Prop where
  watches : Watches w s
  left_le : s.left ≤ n
  limit_le : k + s.left ≤ limit

variable [LawfulMachine μ]

/- Both streams go on alike, and a token can be given back. -/
theorem next_together
    {limit n k : Nat}
    (h : WatchesWithin limit n k w s) :
    Together (fun _ => WatchesEmpty)
      (Taken (WatchesWithin limit) WatchesEmpty n k)
      w.next s.next := by
  rcases w with ⟨s', latest, misused⟩
  rcases h with ⟨⟨hStream, hKept⟩, hLeft, hLimit⟩
  have hSame : s' = s := hStream
  subst hSame
  cases hKept
  unfold next
  rcases hNext : s'.next with ⟨e | t, s₁⟩
  · exact .error ⟨⟨rfl, rfl⟩, Stream.held_of_next hNext⟩
  · apply Together.ok
    constructor
    · exact ⟨⟨rfl, rfl⟩, Stream.held_of_next hNext⟩
    · have hHold := Stream.left_hold_le hNext
      exact ⟨watches_hold hNext, Nat.le_trans hHold hLeft,
        Nat.le_trans (Nat.add_le_add_left hHold k) hLimit⟩
    · intro _
      have hLe := Stream.left_next_le hNext
      exact ⟨⟨rfl, rfl⟩, by omega, by omega⟩
    · intro hEof
      have hLt := Stream.left_next_lt hNext hEof
      have hNest := Token.nest_le_succ k t
      exact ⟨s₁.left, by omega, ⟨rfl, rfl⟩, Nat.le_refl _,
        by omega⟩

/-
  A decoder on a watched stream goes in lockstep with one on the
  stream.  No more containers open than tokens are left.
-/
def lockstep
    (μ : Type)
    [TokenMachine μ]
    [LawfulMachine μ]
    (limit : Nat) :
    Lockstep (Watched μ) (Stream μ) where
  limit := limit
  Ready := WatchesWithin limit
  Idle := WatchesEmpty
  Fails := fun _ => WatchesEmpty
  mono := by
    intro n n' k k' w s hn hk h
    have hLeft := h.left_le
    have hLimit := h.limit_le
    exact ⟨h.watches, by omega, by omega⟩
  depth_le := by
    intro n k w s h
    have hLimit := h.limit_le
    omega
  next := next_together
  fails_value := fun hIdle _ => hIdle
  fails_hop := fun _ h => h

end Watched

------------------------------------------------------------
-- Calls of a Decoder
------------------------------------------------------------

/- What a caller asks a decoder for. -/
inductive Call where
  | decode (shape : Shape)
  | finish

/- Make a call; only decoding answers with a tree. -/
def Call.read
    {σ : Type}
    [TokenSource σ]
    (call : Call) : Reading σ (Option Tree) :=
  match call with
  | .decode shape => do pure (some (← TreeWire.decode shape))
  | .finish => do
      TreeWire.finish
      pure none

/-
  Make calls one after another, also when some of them fail, and
  collect what they answer.
-/
def runCalls
    {σ : Type}
    [TokenSource σ] :
    List Call →
    σ →
    List (Except DecodeError (Option Tree)) × σ
  | [], s => ([], s)
  | call :: calls, s =>
      let (answer, s₁) := call.read s
      let (answers, s₂) := runCalls calls s₁
      (answer :: answers, s₂)

namespace Watched

variable {μ : Type} [TokenMachine μ] [LawfulMachine μ]
variable {w : Watched μ} {s : Stream μ}

/- One call, whether it fails or not. -/
theorem call
    (call : Call)
    (h : Watches w s) :
    (call.read w).1 = (call.read s).1 ∧
      WatchesEmpty (call.read w).2 (call.read s).2 := by
  let L := lockstep μ s.left
  have hReady : L.Ready s.left 0 w s :=
    ⟨h, Nat.le_refl _, Nat.le_of_eq (Nat.zero_add _)⟩
  have hTogether :
      L.Outcome (fun _ => WatchesEmpty) (call.read w)
        (call.read s) := by
    cases call with
    | decode shape =>
        have hBound := Stream.left_le_bound s
        have hBound' : s.left ≤ TokenSource.bound w := by
          change s.left ≤ w.stream.bound
          rw [h.stream]
          exact hBound
        apply (L.decode shape hReady hBound' hBound
          (Nat.le_refl _)).bind
        intro tree w₁ s₁ hPast
        exact .ok hPast.rested.idle
    | finish =>
        apply (L.finish hReady).bind
        intro _ w₁ s₁ hIdle
        exact .ok hIdle
  generalize call.read w = out at hTogether
  generalize call.read s = out' at hTogether
  cases hTogether with
  | ok hEmpty => exact ⟨rfl, hEmpty⟩
  | error hEmpty => exact ⟨rfl, hEmpty⟩

/-
  Calls in any order.  The induction is on the calls; what one of
  them leaves is where the next one starts.
-/
theorem calls
    (calls : List Call)
    (h : Watches w s) :
    (runCalls calls w).1 = (runCalls calls s).1 ∧
      Watches (runCalls calls w).2 (runCalls calls s).2 ∧
      (calls ≠ [] → (runCalls calls s).2.held = none) := by
  induction calls generalizing w s with
  | nil => exact ⟨rfl, h, fun hNe => absurd rfl hNe⟩
  | cons first rest ih =>
      rcases call first h with ⟨hAnswer, hEmpty⟩
      rcases ih hEmpty.watches with ⟨hAnswers, hLast, hSlot⟩
      refine ⟨?_, hLast, ?_⟩
      · exact List.cons_eq_cons.mpr ⟨hAnswer, hAnswers⟩
      · intro _
        cases rest with
        | nil => exact hEmpty.empty
        | cons second rest => exact hSlot nofun

end Watched

------------------------------------------------------------
-- Slots That Are Kept
------------------------------------------------------------

/-
  What decoders owe to the slot of a stream, whatever is called.

  Watching a stream changes neither the answers nor what the
  calls leave.  No token is ever given back while the slot is in
  use, and none but the token just delivered.  When a call has
  returned, with a value or with an error, the slot is empty.
-/
structure Stream.KeepsSlot
    {μ : Type}
    [TokenMachine μ]
    (s : Stream μ) : Prop where
  answers :
    ∀ calls,
      (runCalls calls (Watched.start s)).1 = (runCalls calls s).1
  stream :
    ∀ calls,
      (runCalls calls (Watched.start s)).2.stream =
        (runCalls calls s).2
  unmisused :
    ∀ calls, (runCalls calls (Watched.start s)).2.misused = false
  empty :
    ∀ calls call,
      (runCalls (calls ++ [call]) s).2.held = none

/- Every machine with a right bound makes such a stream. -/
theorem Stream.keepsSlot
    {μ : Type}
    [TokenMachine μ]
    [LawfulMachine μ]
    (s : Stream μ) :
    s.KeepsSlot := by
  have hCalls := fun calls =>
    Watched.calls (w := Watched.start s) calls ⟨rfl, rfl⟩
  constructor
  · intro calls
    exact (hCalls calls).1
  · intro calls
    exact (hCalls calls).2.1.stream
  · intro calls
    exact (hCalls calls).2.1.kept
  · intro calls call
    apply (hCalls (calls ++ [call])).2.2
    simp

/-
  The slot is kept by every sequence of calls on a scanner, on a
  walk and on any list of tokens, from any state: some token may
  be in the slot already, and the stream may have failed.
-/
theorem decoders_keep_slot :
    (∀ s : Stream Scanner, s.KeepsSlot) ∧
      (∀ s : Stream ValueWalk, s.KeepsSlot) ∧
      ∀ s : Stream TokenList, s.KeepsSlot :=
  ⟨Stream.keepsSlot, Stream.keepsSlot, Stream.keepsSlot⟩

end TreeWire
