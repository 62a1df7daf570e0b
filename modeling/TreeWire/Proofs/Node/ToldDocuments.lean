import TreeWire.Proofs.Node.Denotation
import TreeWire.Proofs.Node.Simulation
import TreeWire.Proofs.Source.Nesting
import TreeWire.Source.Scanner
import TreeWire.Source.ValueWalk

/-
  Decoding from a stream that tells a document.

  Whatever the stream is, decoding succeeds exactly when the
  document keeps to the limit of nesting and denotes a tree, and
  gives that tree.  A document that denotes a tree but nests
  deeper fails with the error of the limit.  Two streams that
  tell documents with alike tokens give the same result, up to
  the position that an error of the source names.

  Key definitions include:
    * `decodeText`
    * `decodeParsed`

  Main statements:
    * `decodeDocument_eq_ok_iff`
    * `decodeDocument_tooDeep`
    * `decodeDocument_alike`
-/

namespace TreeWire

------------------------------------------------------------
-- Errors up to Positions
------------------------------------------------------------

/- Causes that differ in the position of bad input at most. -/
def Cause.Alike
    (cause cause' : Cause) : Prop :=
  cause = cause' ∨
    ∃ message p p',
      cause = .malformed message p ∧ cause' = .malformed message p'

/- Errors at one path, with alike causes. -/
def DecodeError.Alike
    (e e' : DecodeError) : Prop :=
  e.cause.Alike e'.cause ∧ e.path = e'.path

theorem DecodeError.Alike.refl
    (e : DecodeError) :
    e.Alike e :=
  ⟨.inl rfl, rfl⟩

/- Results: the same value, or alike errors. -/
inductive ResultsAlike
    {α : Type} :
    Except DecodeError α →
    Except DecodeError α → Prop where
  | ok
      (a : α) :
      ResultsAlike (.ok a) (.ok a)
  | error
      {e e' : DecodeError}
      (h : e.Alike e') :
      ResultsAlike (.error e) (.error e')

------------------------------------------------------------
-- Alike Deliveries
------------------------------------------------------------

namespace Stream

variable {μ ν : Type} [TokenMachine μ] [TokenMachine ν]

theorem AtEnd.eq_of_delivers
    {s s' : Stream μ}
    {ts : List Token}
    (hEnd : s.AtEnd)
    (h : s.Delivers ts s') :
    s' = s := by
  induction ts with
  | nil => exact Delivers.nil_iff.mp h
  | cons t ts ih =>
      rcases Delivers.cons_iff.mp h with ⟨s₁, hNext, hRest⟩
      rw [hEnd] at hNext
      cases hNext
      exact ih hRest

/-
  Two streams deliver alike tokens up to states that are related
  by `Ending`.
-/
def AlikeUntil
    (Ending : Stream μ → Stream ν → Prop)
    (s : Stream μ)
    (s' : Stream ν) : Prop :=
  ∃ ts ts' s₀ s₀',
    List.Forall₂ Token.Alike ts ts' ∧
      s.Delivers ts s₀ ∧ s'.Delivers ts' s₀' ∧ Ending s₀ s₀'

/-
  States in which two alike deliveries may end: both are at the
  end, both fail alike, or the second one stops.
-/
def EndAlike
    (Stops : DecodeError → Prop)
    (s : Stream μ)
    (s' : Stream ν) : Prop :=
  (s.AtEnd ∧ s'.AtEnd) ∨
    (∃ e e' s₁ s₁',
      s.next = (.error e, s₁) ∧ s'.next = (.error e', s₁') ∧
        e.Alike e') ∨
    ∃ e' s₁', s'.next = (.error e', s₁') ∧ Stops e'

/- Alike deliveries go on alike, token by token. -/
theorem AlikeUntil.next
    {Ending : Stream μ → Stream ν → Prop}
    {Stops : DecodeError → Prop}
    (hEnding : ∀ {s s'}, Ending s s' → EndAlike Stops s s')
    {s : Stream μ}
    {s' : Stream ν}
    (h : AlikeUntil Ending s s') :
    (∃ t t' s₁ s₁',
      s.next = (.ok t, s₁) ∧ s'.next = (.ok t', s₁') ∧
        t.Alike t' ∧ AlikeUntil Ending s₁ s₁' ∧
        AlikeUntil Ending (s₁.hold t) (s₁'.hold t')) ∨
    (∃ e e' s₁ s₁',
      s.next = (.error e, s₁) ∧ s'.next = (.error e', s₁') ∧
        e.Alike e') ∨
    ∃ e' s₁', s'.next = (.error e', s₁') ∧ Stops e' := by
  rcases h with ⟨ts, ts', s₀, s₀', hAlike, hLeft, hRight, hEnd⟩
  cases hAlike with
  | nil =>
      cases Delivers.nil_iff.mp hLeft
      cases Delivers.nil_iff.mp hRight
      rcases hEnding hEnd with ⟨hEof, hEof'⟩ | hFail | hStop
      · refine .inl ⟨.eof, .eof, s, s', hEof, hEof', .refl _,
          ⟨[], [], s, s', .nil, .nil s, .nil s', hEnd⟩, ?_⟩
        exact ⟨[.eof], [.eof], s, s', .cons (.refl _) .nil,
          .hold hEof (.nil s), .hold hEof' (.nil s'), hEnd⟩
      · exact .inr (.inl hFail)
      · exact .inr (.inr hStop)
  | @cons t t' ts ts' hFirst hRest =>
      rcases Delivers.cons_iff.mp hLeft with ⟨s₁, hNext, hMore⟩
      rcases Delivers.cons_iff.mp hRight with
        ⟨s₁', hNext', hMore'⟩
      refine .inl ⟨t, t', s₁, s₁', hNext, hNext', hFirst,
        ⟨ts, ts', s₀, s₀', hRest, hMore, hMore', hEnd⟩, ?_⟩
      exact ⟨t :: ts, t' :: ts', s₀, s₀', .cons hFirst hRest,
        .hold hNext hMore, .hold hNext' hMore', hEnd⟩

end Stream

/- Alike deliveries as a simulation. -/
def Simulation.ofDeliveries
    {μ ν : Type}
    [TokenMachine μ]
    [TokenMachine ν]
    (Ending : Stream μ → Stream ν → Prop)
    (Stops : Cause → Prop)
    (hEnding :
      ∀ {s s'}, Ending s s' →
        Stream.EndAlike (fun e => Stops e.cause) s s') :
    Simulation μ ν where
  Rel := Stream.AlikeUntil Ending
  Errors := DecodeError.Alike
  Stops := fun e => Stops e.cause
  errors_refl := .refl
  errors_hop := by
    intro e e' hop h
    exact ⟨h.1, congrArg (hop :: ·) h.2⟩
  stops_hop := fun _ h => h
  next := fun h => h.next hEnding

------------------------------------------------------------
-- Whole Documents
------------------------------------------------------------

section

variable {μ : Type} [TokenMachine μ] [LawfulMachine μ]
variable {Site : Option Position → Prop} {limit : Nat}
variable {s : Stream μ} {j : Json} {shape : Shape} {v : Tree}

/- A document that is delivered whole, and the end behind it. -/
theorem decodeDocument_of_delivers
    {s₁ s₂ s' : Stream μ}
    (hTokens : s.Delivers j.tokens s₁)
    (hEof : s₁.next = (.ok .eof, s₂)) :
    decodeDocument shape s = (.ok v, s') ↔
      Denotes shape j v ∧ s' = s₂ := by
  have hFinish : finish s₁ = (.ok (), s₂) := by
    rw [finish, nextToken_bind_ok hEof, if_pos rfl]
    rfl
  rw [decodeDocument, Action.bind_eq_ok_iff]
  simp only [decode_eq_ok_iff shape hTokens]
  constructor
  · intro hParts
    rcases hParts with ⟨v', _, ⟨hDenotes, rfl⟩, hRest⟩
    rw [Action.bind_ok hFinish] at hRest
    cases hRest
    exact ⟨hDenotes, rfl⟩
  · intro hParts
    rcases hParts with ⟨hDenotes, rfl⟩
    refine ⟨v, s₁, ⟨hDenotes, rfl⟩, ?_⟩
    rw [Action.bind_ok hFinish]
    rfl

/- The tokens of the whole document, to compare a cut one with. -/
theorem decodeDocument_tokenList
    {l : Stream TokenList} :
    decodeDocument shape (TokenList.stream j.tokens) =
        (.ok v, l) ↔
      Denotes shape j v ∧ l = TokenList.stream [] := by
  have hTokens := TokenList.stream_delivers j.tokens []
  rw [List.append_nil] at hTokens
  exact decodeDocument_of_delivers hTokens rfl

/-
  A stream that is cut short does not decode, and fails for the
  cut if the whole document denotes a tree.
-/
theorem decodeDocument_cut
    (shape : Shape)
    (h : s.Tells Site limit j)
    (hDepth : limit < j.depth) :
    ∃ e s',
      decodeDocument shape s = (.error e, s') ∧
        ∀ v, Denotes shape j v →
          ∃ position,
            Site position ∧
              e.cause = .malformed (depthMessage limit) position := by
  rcases h.tooDeep hDepth with
    ⟨us, t, vs, s₁, hTokens, _, hDelivers, hFails⟩
  -- The list has a token where the stream fails.
  let Ending (l : Stream TokenList) (s : Stream μ) : Prop :=
    ¬ l.AtEnd ∧ s.FailsBeyond Site limit
  let S :=
    Simulation.ofDeliveries Ending
      (fun cause => ∃ position, Site position ∧
        cause = .malformed (depthMessage limit) position)
      (by
        intro l s hParts
        rcases hParts with ⟨_, position, s', hSite, hNext⟩
        exact .inr (.inr ⟨_, s', hNext, position, hSite, rfl⟩))
  have hMore : ¬ (TokenList.stream (t :: vs)).AtEnd := by
    intro hEnd
    cases hEnd
  have hRel : S.Rel (TokenList.stream j.tokens) s := by
    refine ⟨us, us, _, s₁, List.forall₂_same.mpr fun t _ => .refl t,
      ?_, hDelivers, hMore, hFails⟩
    rw [hTokens]
    exact TokenList.stream_delivers us (t :: vs)
  have hOutcome := S.decodeDocument shape hRel
  generalize hLeft :
    decodeDocument shape (TokenList.stream j.tokens) = out
    at hOutcome
  generalize decodeDocument shape s = out' at hOutcome
  cases hOutcome with
  | ok hValues hStates =>
      have hEnd : (TokenList.stream []).AtEnd := rfl
      rcases decodeDocument_tokenList.mp hLeft with ⟨_, rfl⟩
      rcases hStates with ⟨_, _, _, _, _, hTail, _, hMore', _⟩
      rw [hEnd.eq_of_delivers hTail] at hMore'
      exact absurd hEnd hMore'
  | error hErrors =>
      refine ⟨_, _, rfl, fun v hDenotes => ?_⟩
      rw [decodeDocument_tokenList.mpr ⟨hDenotes, rfl⟩] at hLeft
      cases hLeft
  | stop hStops =>
      exact ⟨_, _, rfl, fun _ _ => hStops⟩

/-
  Decoding from a stream that tells a document succeeds exactly
  when the document keeps to the limit and denotes a tree.
-/
theorem decodeDocument_eq_ok_iff
    (h : s.Tells Site limit j) :
    (decodeDocument shape s).1 = .ok v ↔
      j.depth ≤ limit ∧ Denotes shape j v := by
  by_cases hDepth : j.depth ≤ limit
  · rcases h.delivers hDepth with ⟨s₁, s₂, hTokens, hEof, _⟩
    constructor
    · intro hOk
      have hDecode :
          decodeDocument shape s =
            (.ok v, (decodeDocument shape s).2) :=
        Prod.ext hOk rfl
      exact ⟨hDepth,
        ((decodeDocument_of_delivers hTokens hEof).mp hDecode).1⟩
    · intro hParts
      rcases hParts with ⟨_, hDenotes⟩
      rw [(decodeDocument_of_delivers hTokens hEof).mpr
        ⟨hDenotes, rfl⟩]
  · rcases decodeDocument_cut shape h (Nat.lt_of_not_le hDepth) with
      ⟨e, s', hError, _⟩
    simp [hError, hDepth]

/- A document that denotes a tree but nests too deep. -/
theorem decodeDocument_tooDeep
    (h : s.Tells Site limit j)
    (hDepth : limit < j.depth)
    (hDenotes : Denotes shape j v) :
    ∃ position path,
      Site position ∧
        (decodeDocument shape s).1 =
          .error ⟨.malformed (depthMessage limit) position, path⟩ := by
  rcases decodeDocument_cut shape h hDepth with
    ⟨e, s', hError, hCause⟩
  rcases hCause v hDenotes with ⟨position, hSite, hEq⟩
  refine ⟨position, e.path, hSite, ?_⟩
  rw [hError, ← hEq]

end

------------------------------------------------------------
-- Two Streams
------------------------------------------------------------

/- Alike tokens open and close alike. -/
theorem Token.Alike.opens_eq
    {t t' : Token}
    (h : t.Alike t') :
    t.opens = t'.opens := by
  rcases h with rfl | ⟨a, b, x, rfl, rfl, _, _⟩ <;> rfl

theorem Token.Alike.nest_eq
    {t t' : Token}
    (h : t.Alike t')
    (depth : Nat) :
    t.nest depth = t'.nest depth := by
  rcases h with rfl | ⟨a, b, x, rfl, rfl, _, _⟩ <;> rfl

/- Alike tokens are cut at the same place. -/
theorem Token.within_alike
    {ts ts' : List Token}
    (limit depth : Nat)
    (h : List.Forall₂ Token.Alike ts ts') :
    List.Forall₂ Token.Alike (Token.within limit depth ts)
      (Token.within limit depth ts') := by
  induction h generalizing depth with
  | nil => exact .nil
  | cons hFirst _ ih =>
      simp only [Token.within, hFirst.opens_eq,
        hFirst.nest_eq depth]
      split
      · exact .nil
      · exact .cons hFirst (ih _)

section

variable {μ ν : Type} [TokenMachine μ] [TokenMachine ν]
variable {Site Site' : Option Position → Prop} {limit : Nat}
variable {s : Stream μ} {s' : Stream ν} {j j' : Json}

/- Documents with alike tokens nest equally deep. -/
theorem depth_le_iff_of_alike
    (limit : Nat)
    (hAlike : List.Forall₂ Token.Alike j.tokens j'.tokens) :
    j.depth ≤ limit ↔ j'.depth ≤ limit := by
  have hLength := hAlike.length_eq
  have hWithin := (Token.within_alike limit 0 hAlike).length_eq
  rw [← Json.within_tokens_length_iff, ← Json.within_tokens_length_iff,
    hWithin, hLength]

/- Both streams are at the end, or fail for the same limit. -/
def EndTogether
    (Site Site' : Option Position → Prop)
    (limit : Nat)
    (s : Stream μ)
    (s' : Stream ν) : Prop :=
  (s.AtEnd ∧ s'.AtEnd) ∨
    (s.FailsBeyond Site limit ∧ s'.FailsBeyond Site' limit)

theorem EndTogether.endAlike
    (h : EndTogether Site Site' limit s s') :
    Stream.EndAlike (fun _ => False) s s' := by
  rcases h with hEnd | ⟨⟨p, s₁, _, hNext⟩, ⟨p', s₁', _, hNext'⟩⟩
  · exact .inl hEnd
  · exact .inr (.inl ⟨_, _, s₁, s₁', hNext, hNext',
      .inr ⟨_, p, p', rfl, rfl⟩, rfl⟩)

/- Streams that tell alike documents are cut together. -/
theorem alikeUntil_of_tells
    (h : s.Tells Site limit j)
    (h' : s'.Tells Site' limit j')
    (hAlike : List.Forall₂ Token.Alike j.tokens j'.tokens) :
    Stream.AlikeUntil (EndTogether Site Site' limit) s s' := by
  have hDepths := depth_le_iff_of_alike limit hAlike
  by_cases hDepth : j.depth ≤ limit
  · have hDepth' := hDepths.mp hDepth
    rcases h.delivers hDepth with ⟨s₁, s₂, hTokens, hEof, hEnd⟩
    rcases h'.delivers hDepth' with
      ⟨s₁', s₂', hTokens', hEof', hEnd'⟩
    refine ⟨j.tokens ++ [.eof], j'.tokens ++ [.eof], s₂, s₂',
      List.rel_append hAlike (.cons (.refl _) .nil), ?_, ?_,
      .inl ⟨hEnd, hEnd'⟩⟩
    · exact Stream.Delivers.append_iff.mpr
        ⟨s₁, hTokens, Stream.Delivers.singleton_iff.mpr hEof⟩
    · exact Stream.Delivers.append_iff.mpr
        ⟨s₁', hTokens', Stream.Delivers.singleton_iff.mpr hEof'⟩
  · have hDepth' := fun hLe => hDepth (hDepths.mpr hLe)
    rcases h.tooDeep (Nat.lt_of_not_le hDepth) with
      ⟨us, _, _, s₁, _, rfl, hTokens, hFails⟩
    rcases h'.tooDeep (Nat.lt_of_not_le hDepth') with
      ⟨us', _, _, s₁', _, rfl, hTokens', hFails'⟩
    exact ⟨_, _, s₁, s₁', Token.within_alike limit 0 hAlike,
      hTokens, hTokens', .inr ⟨hFails, hFails'⟩⟩

/-
  Two streams that tell documents with alike tokens give the
  same result, up to the positions of errors.
-/
theorem decodeDocument_alike
    [LawfulMachine μ]
    [LawfulMachine ν]
    (shape : Shape)
    (h : s.Tells Site limit j)
    (h' : s'.Tells Site' limit j')
    (hAlike : List.Forall₂ Token.Alike j.tokens j'.tokens) :
    ResultsAlike (decodeDocument shape s).1
      (decodeDocument shape s').1 := by
  let S : Simulation μ ν :=
    Simulation.ofDeliveries (EndTogether Site Site' limit)
      (fun _ => False) EndTogether.endAlike
  have hOutcome :=
    S.decodeDocument shape (alikeUntil_of_tells h h' hAlike)
  generalize decodeDocument shape s = out at hOutcome
  generalize decodeDocument shape s' = out' at hOutcome
  cases hOutcome with
  | ok hValues =>
      subst hValues
      exact .ok _
  | error hErrors => exact .error hErrors
  | stop hStops => exact absurd hStops id

end

------------------------------------------------------------
-- Texts and Parsed Documents
------------------------------------------------------------

/- The tree of a text, with a limit of nesting. -/
def decodeText
    (shape : Shape)
    (bytes : List UInt8)
    (limit : Nat) : Except DecodeError Tree :=
  (decodeDocument shape (Scanner.stream bytes none limit)).1

/- The tree of a parsed document, with a limit of nesting. -/
def decodeParsed
    (shape : Shape)
    (j : Json)
    (limit : Nat) : Except DecodeError Tree :=
  (decodeDocument shape (ValueWalk.stream j limit)).1

end TreeWire
