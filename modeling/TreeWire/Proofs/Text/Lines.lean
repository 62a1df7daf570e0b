import Mathlib.Data.List.Basic
import TreeWire.Text.Lines

/-
  The lines of characters, by the line feeds in them.

  Characters up to a line feed are one line, and what is behind
  the line feed has lines of its own.  So the lines of a text
  that stops at a line feed come first, whatever stands behind
  it, and there are as many of them as there are line feeds.

  Key definitions include:
    * `withoutReturn`
    * `WholeLines`

  Main statements:
    * `linesOf_line`
    * `linesOf_last`
    * `lineFeed_notMem`
    * `linesOf_append`
    * `length_linesOf`
-/

namespace TreeWire

------------------------------------------------------------
-- Single Lines
------------------------------------------------------------

/- Characters without the carriage return at their end. -/
def withoutReturn
    (cs : List Char) : List Char :=
  if cs.getLast? = some '\r' then cs.dropLast else cs

theorem withoutReturn_cons
    {c : Char}
    {cs : List Char}
    (h : c ≠ '\r' ∨ cs ≠ []) :
    withoutReturn (c :: cs) = c :: withoutReturn cs := by
  cases cs with
  | nil =>
      have hChar : c ≠ '\r' := h.resolve_right (by simp)
      simp [withoutReturn, hChar]
  | cons d ds =>
      simp only [withoutReturn, List.getLast?_cons_cons]
      split <;> simp

theorem withoutReturn_append
    (cs : List Char) :
    withoutReturn (cs ++ ['\r']) = cs := by
  rw [withoutReturn, List.getLast?_concat, if_pos rfl,
    List.dropLast_concat]

theorem withoutReturn_of_notMem
    {cs : List Char}
    (h : '\r' ∉ cs) :
    withoutReturn cs = cs := by
  rw [withoutReturn, if_neg]
  exact fun hLast => h (List.mem_of_getLast? hLast)

theorem withoutReturn_subset
    (cs : List Char) :
    withoutReturn cs ⊆ cs := by
  rw [withoutReturn]
  split
  · exact List.dropLast_subset cs
  · exact List.Subset.refl cs

/- A character that ends no line belongs to the next line. -/
theorem linesOf_cons
    {c : Char}
    {rest line : List Char}
    {lines : List (List Char)}
    (hChar : c ≠ '\n')
    (hReturn : c ≠ '\r' ∨ rest.head? ≠ some '\n')
    (hRest : linesOf rest = line :: lines) :
    linesOf (c :: rest) = (c :: line) :: lines := by
  rw [linesOf, hRest]
  · intro hEq
    exact hChar hEq
  · intro more hEq hMore
    rcases hReturn with hReturn | hReturn
    · exact hReturn hEq
    · apply hReturn
      rw [hMore]
      rfl

/- Characters up to a line feed are one line. -/
theorem linesOf_line
    {cs : List Char}
    (rest : List Char)
    (h : '\n' ∉ cs) :
    linesOf (cs ++ '\n' :: rest) =
      withoutReturn cs :: linesOf rest := by
  induction cs with
  | nil => rfl
  | cons c cs ih =>
      rw [List.mem_cons, not_or] at h
      by_cases hReturn : c = '\r' ∧ cs = []
      · rcases hReturn with ⟨rfl, rfl⟩
        rfl
      · have hOther : c ≠ '\r' ∨ cs ≠ [] := by
          rwa [not_and_or] at hReturn
        rw [withoutReturn_cons hOther]
        refine linesOf_cons (Ne.symm h.1) ?_ (ih h.2)
        refine hOther.imp_right fun hNonempty => ?_
        cases cs with
        | nil => exact absurd rfl hNonempty
        | cons d ds =>
            intro hHead
            have hFirst : d = '\n' := Option.some.inj hHead
            apply h.2
            rw [hFirst]
            exact List.mem_cons_self

/- Characters without a line feed are one line, if any. -/
theorem linesOf_last
    {cs : List Char}
    (hNonempty : cs ≠ [])
    (h : '\n' ∉ cs) :
    linesOf cs = [cs] := by
  induction cs with
  | nil => exact absurd rfl hNonempty
  | cons c cs ih =>
      rw [List.mem_cons, not_or] at h
      by_cases hLast : cs = []
      · subst hLast
        rw [linesOf]
        · rfl
        · exact fun hEq => h.1 hEq.symm
        · nofun
      · refine linesOf_cons (Ne.symm h.1) (.inr ?_) (ih hLast h.2)
        intro hHead
        exact h.2 (List.mem_of_mem_head? hHead)

-- Only a carriage return right before a line feed is dropped.
example :
    linesOf "a\r\n\rb\r".toList =
      ["a".toList, "\rb\r".toList] := by
  rfl

/- No line holds a line feed. -/
theorem lineFeed_notMem
    (cs : List Char) :
    ∀ line ∈ linesOf cs, '\n' ∉ line := by
  fun_induction linesOf cs with
  | case1 => exact List.forall_mem_nil _
  | case2 rest ih =>
      exact List.forall_mem_cons.mpr ⟨List.not_mem_nil, ih⟩
  | case3 rest ih =>
      exact List.forall_mem_cons.mpr ⟨List.not_mem_nil, ih⟩
  | case4 c rest hChar hReturn hLines ih =>
      rw [List.forall_mem_singleton, List.mem_singleton]
      exact fun hEq => hChar hEq.symm
  | case5 c rest hChar hReturn first lines hLines ih =>
      rw [hLines, List.forall_mem_cons] at ih
      rw [List.forall_mem_cons, List.mem_cons, not_or]
      exact ⟨⟨fun hEq => hChar hEq.symm, ih.1⟩, ih.2⟩

------------------------------------------------------------
-- Whole Lines
------------------------------------------------------------

/- Characters that are lines with a line feed behind each. -/
inductive WholeLines : List Char → Prop where
  | nil :
      WholeLines []
  | line
      {cs rest : List Char}
      (hLine : '\n' ∉ cs)
      (hRest : WholeLines rest) :
      WholeLines (cs ++ '\n' :: rest)

/- What stands behind whole lines has its own lines. -/
theorem linesOf_append
    {before : List Char}
    (after : List Char)
    (h : WholeLines before) :
    linesOf (before ++ after) = linesOf before ++ linesOf after := by
  induction h with
  | nil => rfl
  | line hLine hRest ih =>
      rw [List.append_assoc, List.cons_append, linesOf_line _ hLine,
        linesOf_line _ hLine, ih, List.cons_append]

/- There are as many whole lines as there are line feeds. -/
theorem length_linesOf
    {cs : List Char}
    (h : WholeLines cs) :
    (linesOf cs).length = cs.count '\n' := by
  induction h with
  | nil => rfl
  | line hLine hRest ih =>
      rw [linesOf_line _ hLine, List.length_cons, ih,
        List.count_append, List.count_cons_self,
        List.count_eq_zero_of_not_mem hLine, Nat.zero_add]

end TreeWire
