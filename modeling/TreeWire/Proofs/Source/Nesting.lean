import TreeWire.Proofs.Json.Tokens
import TreeWire.Proofs.Source.Delivery

/-
  Streams that keep to a limit of nesting.

  `Stream.GoesThrough` says that a stream delivers tokens to
  their end, or delivers those before the first container beyond
  the limit and then fails with the error of that limit.  `Site`
  says which positions such an error may name.

  `Stream.Tells` says that a stream goes through the tokens of a
  document, and then is at the end of its input for good.

  Main statements:
    * `Stream.GoesThrough.cons`
    * `Stream.Tells.delivers`
    * `Stream.Tells.tooDeep`
-/

namespace TreeWire

namespace Stream

variable {μ : Type} [TokenMachine μ]

------------------------------------------------------------
-- Going Through Tokens
------------------------------------------------------------

/- A stream fails because of a limit of nesting. -/
def FailsBeyond
    (Site : Option Position → Prop)
    (limit : Nat)
    (s : Stream μ) : Prop :=
  ∃ position s',
    Site position ∧
      s.next =
        (.error (.here (.malformed (depthMessage limit) position)),
          s')

/-
  A stream with so many containers open delivers all of the
  tokens, or those before a container beyond the limit, and
  fails there.
-/
def GoesThrough
    (Site : Option Position → Prop)
    (limit depth : Nat)
    (s : Stream μ)
    (ts : List Token)
    (s' : Stream μ) : Prop :=
  (Token.within limit depth ts = ts ∧ s.Delivers ts s') ∨
    ∃ us t vs s₁,
      ts = us ++ t :: vs ∧ t.opens = true ∧
        Token.within limit depth ts = us ∧
        s.Delivers us s₁ ∧
        s₁.FailsBeyond Site limit

variable {Site : Option Position → Prop}
variable {limit depth : Nat}
variable {s s' : Stream μ}

namespace GoesThrough

theorem nil
    (s : Stream μ) :
    GoesThrough Site limit depth s [] s :=
  .inl ⟨rfl, .nil s⟩

/- A container beyond the limit. -/
theorem tooDeep
    {t : Token}
    (ts : List Token)
    (s' : Stream μ)
    (hOpens : t.opens = true)
    (hDeep : limit ≤ depth)
    (hFails : s.FailsBeyond Site limit) :
    GoesThrough Site limit depth s (t :: ts) s' := by
  refine .inr ⟨[], t, ts, s, rfl, hOpens, ?_, .nil s, hFails⟩
  rw [Token.within, if_pos ⟨hOpens, hDeep⟩]

/- One token, and those that a stream goes through after it. -/
theorem cons
    {s₁ : Stream μ}
    {t : Token}
    {ts : List Token}
    (hNext : s.next = (.ok t, s₁))
    (hDepth : ¬ (t.opens = true ∧ limit ≤ depth))
    (h : GoesThrough Site limit (t.nest depth) s₁ ts s') :
    GoesThrough Site limit depth s (t :: ts) s' := by
  have hWithin :
      Token.within limit depth (t :: ts) =
        t :: Token.within limit (t.nest depth) ts := by
    rw [Token.within, if_neg hDepth]
  rcases h with
    ⟨hAll, hDelivers⟩ |
    ⟨us, t', vs, s₂, rfl, hOpens, hCut, hDelivers, hFails⟩
  · refine .inl ⟨?_, .cons hNext hDelivers⟩
    rw [hWithin, hAll]
  · refine .inr ⟨t :: us, t', vs, s₂, rfl, hOpens, ?_,
      .cons hNext hDelivers, hFails⟩
    rw [hWithin, hCut]

end GoesThrough

------------------------------------------------------------
-- Telling a Document
------------------------------------------------------------

/- A stream is at the end of its input for good. -/
def AtEnd
    (s : Stream μ) : Prop :=
  s.next = (.ok .eof, s)

/-
  A stream goes through the tokens of a document and comes to
  the end of its input.
-/
def Tells
    (Site : Option Position → Prop)
    (limit : Nat)
    (s : Stream μ)
    (j : Json) : Prop :=
  ∃ s₁ s₂,
    GoesThrough Site limit 0 s j.tokens s₁ ∧
      s₁.next = (.ok .eof, s₂) ∧ s₂.AtEnd

namespace Tells

variable {j : Json}

/- A document within the limit is delivered whole. -/
theorem delivers
    (h : s.Tells Site limit j)
    (hDepth : j.depth ≤ limit) :
    ∃ s₁ s₂,
      s.Delivers j.tokens s₁ ∧
        s₁.next = (.ok .eof, s₂) ∧ s₂.AtEnd := by
  rcases h with ⟨s₁, s₂, hThrough, hEof, hEnd⟩
  have hWithin := (Json.within_tokens_eq_iff j).mpr hDepth
  rcases hThrough with
    ⟨_, hDelivers⟩ | ⟨us, t, vs, _, hTokens, _, hCut, _⟩
  · exact ⟨s₁, s₂, hDelivers, hEof, hEnd⟩
  · have hSame : j.tokens = us := hWithin.symm.trans hCut
    rw [hSame] at hTokens
    simp at hTokens

/- A document beyond the limit is cut short. -/
theorem tooDeep
    (h : s.Tells Site limit j)
    (hDepth : limit < j.depth) :
    ∃ us t vs s₁,
      j.tokens = us ++ t :: vs ∧
        Token.within limit 0 j.tokens = us ∧
        s.Delivers us s₁ ∧ s₁.FailsBeyond Site limit := by
  rcases h with ⟨_, _, hThrough, _⟩
  rcases hThrough with
    ⟨hAll, _⟩ | ⟨us, t, vs, s₁, hTokens, _, hCut, hDelivers, hFails⟩
  · exact absurd ((Json.within_tokens_eq_iff j).mp hAll)
      (Nat.not_le_of_lt hDepth)
  · exact ⟨us, t, vs, s₁, hTokens, hCut, hDelivers, hFails⟩

end Tells

end Stream

end TreeWire
