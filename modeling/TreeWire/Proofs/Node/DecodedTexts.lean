import TreeWire.Proofs.Node.ToldDocuments
import TreeWire.Proofs.Source.ScannedDocuments

/-
  The texts that decode, whatever their bytes are.

  A stream either comes to its end or fails before it.  Decoding
  looks for the end behind the tree, so a stream that fails does
  not decode.  A scanner that comes to its end has read one
  document.  So a text decodes exactly when it is a document that
  keeps to the limit and denotes a tree.

  Main statements:
    * `Stream.reaches_end_or_fails`
    * `decodeDocument_of_fails`
    * `decodeText_eq_ok_iff`
-/

namespace TreeWire

------------------------------------------------------------
-- Streams That Fail
------------------------------------------------------------

namespace Stream

variable {μ : Type} [TokenMachine μ]

/- A stream fails before it comes to its end. -/
def Fails
    (s : Stream μ) : Prop :=
  ∃ ts e s₀ s₁,
    .eof ∉ ts ∧ s.Delivers ts s₀ ∧ s₀.next = (.error e, s₁)

/- The next reading of a stream that fails. -/
theorem Fails.next
    {s : Stream μ}
    (h : s.Fails) :
    (∃ t s₁,
      t ≠ .eof ∧ s.next = (.ok t, s₁) ∧ s₁.Fails ∧
        (s₁.hold t).Fails) ∨
    ∃ e s₁, s.next = (.error e, s₁) := by
  rcases h with ⟨ts, e, s₀, s₂, hEof, hDelivers, hError⟩
  cases hDelivers with
  | nil => exact .inr ⟨e, s₂, hError⟩
  | @cons _ s₁ _ t ts hNext hRest =>
      have hFirst : t ≠ .eof := by
        intro hEq
        apply hEof
        rw [hEq]
        exact List.mem_cons_self
      have hOthers : .eof ∉ ts := fun hMem =>
        hEof (List.mem_cons_of_mem t hMem)
      exact .inl ⟨t, s₁, hFirst, hNext,
        ⟨ts, e, s₀, s₂, hOthers, hRest, hError⟩,
        ⟨t :: ts, e, s₀, s₂, hEof, .hold hNext hRest, hError⟩⟩

/-
  Every stream comes to its end or fails.  The induction is on
  what is left of the stream.
-/
theorem reaches_end_or_fails
    [LawfulMachine μ]
    (s : Stream μ) :
    (∃ ts s', .eof ∉ ts ∧ s.Delivers (ts ++ [.eof]) s') ∨
      s.Fails := by
  induction hLeft : s.left using Nat.strongRecOn
    generalizing s with
  | _ left ih =>
      subst hLeft
      cases hNext : s.next with
      | mk result s₁ =>
          cases result with
          | error e =>
              exact .inr ⟨[], e, s, s₁, nofun, .nil s, hNext⟩
          | ok t =>
              by_cases hEof : t = .eof
              · subst hEof
                exact .inl ⟨[], s₁, nofun,
                  Delivers.singleton_iff.mpr hNext⟩
              · have hLt := left_next_lt hNext hEof
                have hCons :
                    ∀ {ts : List Token},
                      .eof ∉ ts → .eof ∉ t :: ts := by
                  intro ts hTokens hMem
                  rcases List.mem_cons.mp hMem with hEq | hMem
                  · exact hEof hEq.symm
                  · exact hTokens hMem
                rcases ih s₁.left hLt s₁ rfl with
                  ⟨ts, s', hTokens, hDelivers⟩ |
                  ⟨ts, e, s₀, s₂, hTokens, hDelivers, hError⟩
                · exact .inl ⟨t :: ts, s', hCons hTokens,
                    .cons hNext hDelivers⟩
                · exact .inr ⟨t :: ts, e, s₀, s₂, hCons hTokens,
                    .cons hNext hDelivers, hError⟩

end Stream

------------------------------------------------------------
-- Decoding from a Stream That Fails
------------------------------------------------------------

variable {μ : Type} [TokenMachine μ]

/- A stream that fails, beside itself. -/
def Simulation.ofFailing : Simulation μ μ where
  Rel := fun s s' => s = s' ∧ s.Fails
  Errors := Eq
  Stops := fun _ => False
  errors_refl := fun _ => rfl
  errors_hop := errors_hop_eq
  stops_hop := fun _ h => h
  next := by
    intro s s' h
    rcases h with ⟨rfl, hFails⟩
    rcases hFails.next with
      ⟨t, s₁, _, hNext, hRest, hHeld⟩ | ⟨e, s₁, hNext⟩
    · exact .inl ⟨t, t, s₁, s₁, hNext, hNext, .refl t, ⟨rfl, hRest⟩,
        ⟨rfl, hHeld⟩⟩
    · exact .inr (.inl ⟨e, e, s₁, s₁, hNext, hNext, rfl⟩)

/- What a stream that fails leaves behind is no end. -/
theorem finish_of_fails
    {s : Stream μ}
    (h : s.Fails) :
    ∃ e s', finish s = (.error e, s') := by
  rcases h.next with ⟨t, s₁, hEof, hNext, _⟩ | ⟨e, s₁, hNext⟩
  · rw [finish, nextToken_bind_ok hNext, if_neg hEof]
    exact ⟨_, _, rfl⟩
  · rw [finish, nextToken_bind_error hNext]
    exact ⟨_, _, rfl⟩

/- A stream that fails does not decode. -/
theorem decodeDocument_of_fails
    [LawfulMachine μ]
    {s : Stream μ}
    (shape : Shape)
    (h : s.Fails) :
    ∃ e s', decodeDocument shape s = (.error e, s') := by
  have hOutcome :=
    Simulation.ofFailing.decode shape ⟨(rfl : s = s), h⟩
  unfold decodeDocument
  cases hDecode : decode shape s with
  | mk result s₁ =>
      cases result with
      | error e => exact ⟨e, s₁, Action.bind_error hDecode⟩
      | ok v =>
          rw [hDecode] at hOutcome
          cases hOutcome with
          | ok _ hStates =>
              rcases finish_of_fails hStates.2 with
                ⟨e, s₂, hFinish⟩
              rw [Action.bind_ok hDecode]
              exact ⟨e, s₂, Action.bind_error hFinish⟩

------------------------------------------------------------
-- Texts
------------------------------------------------------------

/-
  A text decodes exactly when it is a document that keeps to the
  limit of nesting and denotes a tree, and gives that tree.
-/
theorem decodeText_eq_ok_iff
    {shape : Shape}
    {bytes : List UInt8}
    {limit : Nat}
    {v : Tree} :
    decodeText shape bytes limit = .ok v ↔
      ∃ j,
        Grammar.Document bytes j ∧ j.depth ≤ limit ∧
          Denotes shape j v := by
  constructor
  · intro hDecode
    rcases (Scanner.stream bytes none limit).reaches_end_or_fails with
      ⟨ts, s, hEof, hDelivers⟩ | hFails
    · rcases Scanner.document_of_delivers hEof hDelivers with
        ⟨j, hDocument, _⟩
      exact ⟨j, hDocument, (decodeDocument_eq_ok_iff
        (Scanner.stream_tells limit hDocument)).mp hDecode⟩
    · rcases decodeDocument_of_fails shape hFails with
        ⟨e, s', hError⟩
      rw [decodeText, hError] at hDecode
      cases hDecode
  · intro hParts
    rcases hParts with ⟨j, hDocument, hDepth, hDenotes⟩
    exact (decodeDocument_eq_ok_iff
      (Scanner.stream_tells limit hDocument)).mpr
        ⟨hDepth, hDenotes⟩

end TreeWire
