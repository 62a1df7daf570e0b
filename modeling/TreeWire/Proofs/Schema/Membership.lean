import Mathlib.Data.List.Nodup
import TreeWire.Proofs.Schema.Fields

/-
  The sum types of a schema and the node types that they carry.

  Sums are collected one for each category.  Then each sum keeps
  the variants that carry a declared node type which no variant
  before them carries, and every variant that is kept makes its
  node type a member of the sum.  So no node type is a member
  twice.

  Main statements:
    * `collectSums_wellFormed`
    * `retainVariants_spec`
    * `retainAll_spec`
    * `nodup_collectStructs`
-/

namespace TreeWire

open Declaration

------------------------------------------------------------
-- Keyed Lists
------------------------------------------------------------

/- Where keys are different, a key finds the one that has it. -/
theorem find?_key_of_mem
    {α κ : Type}
    [DecidableEq κ]
    {key : α → κ}
    {as : List α}
    {a : α}
    (hNodup : (as.map key).Nodup)
    (hMem : a ∈ as) :
    as.find? (fun b => key b = key a) = some a := by
  cases hFound : as.find? fun b => key b = key a with
  | none =>
      have hNone := List.find?_eq_none.mp hFound a hMem
      simp at hNone
  | some b =>
      have hKey : key b = key a := by
        simpa using List.find?_some hFound
      have hSame :=
        List.inj_on_of_nodup_map hNodup
          (List.mem_of_find?_eq_some hFound) hMem hKey
      rw [hSame]

/- One more with a key that is new. -/
theorem nodup_map_append
    {α β : Type}
    {key : α → β}
    {as : List α}
    {a : α}
    (hNodup : (as.map key).Nodup)
    (hNew : ∀ b ∈ as, key b ≠ key a) :
    ((as ++ [a]).map key).Nodup := by
  rw [List.map_append, List.map_singleton, List.nodup_append]
  refine ⟨hNodup, List.nodup_singleton _, ?_⟩
  intro k hMem k' hLast
  rcases List.mem_map.mp hMem with ⟨b, hBefore, rfl⟩
  rw [List.mem_singleton] at hLast
  subst hLast
  exact hNew b hBefore

------------------------------------------------------------
-- Collecting Sums
------------------------------------------------------------

/- A sum type has the tag of its category and proper names. -/
structure SumType.WellFormed
    (sum : SumType) : Prop where
  tagged : sum.category.tag? = some sum.tag
  named :
    ∀ v ∈ sum.variants, WireOptions.isWireName v.wireName = true

/- Sum types of which no two have the same category. -/
structure SumsWellFormed
    (sums : List SumType) : Prop where
  categories : (sums.map SumType.category).Nodup
  each : ∀ sum ∈ sums, sum.WellFormed

theorem tag?_of_ofTag?
    {tag : String}
    {category : Category}
    (h : Category.ofTag? tag = some category) :
    category.tag? = some tag := by
  unfold Category.ofTag? at h
  split at h
  · rename_i hTag
    cases h
    rw [hTag]
    rfl
  · split at h
    · rename_i hTag
      cases h
      rw [hTag]
      rfl
    · cases h

theorem wellFormed_of_sumOf
    {decl : EnumDecl}
    {sum : SumType}
    {warnings : List Warning}
    (h : sumOf decl = (some sum, warnings)) :
    sum.WellFormed := by
  unfold sumOf at h
  split at h
  · cases h
  split at h
  · cases h
  split at h
  · cases h
  rename_i category hCategory
  split at h
  · cases h
  cases h
  refine ⟨tag?_of_ofTag? hCategory, ?_⟩
  intro v hMem
  rw [mem_successes_iff, List.map_map, List.mem_map] at hMem
  rcases hMem with ⟨variant, _, hVariant⟩
  exact isWireName_of_variantOf hVariant

/- A sum type of a new category. -/
theorem SumsWellFormed.append
    {found : List SumType}
    {sum : SumType}
    (h : SumsWellFormed found)
    (hSum : sum.WellFormed)
    (hNew : ∀ s ∈ found, s.category ≠ sum.category) :
    SumsWellFormed (found ++ [sum]) := by
  constructor
  · exact nodup_map_append h.categories hNew
  · intro s hMem
    rcases List.mem_append.mp hMem with hFound | hLast
    · exact h.each s hFound
    · rw [List.mem_singleton] at hLast
      subst hLast
      exact hSum

/- Each enumeration adds a sum of a new category, or nothing. -/
theorem collectSums_wellFormed
    {found : List SumType}
    (decls : List EnumDecl)
    (h : SumsWellFormed found) :
    SumsWellFormed (collectSums found decls).1 := by
  induction decls generalizing found with
  | nil => exact h
  | cons decl decls ih =>
      unfold collectSums
      split
      · exact ih h
      · rename_i sum warnings hSum
        split
        · exact ih h
        · rename_i hNew
          apply ih
          apply h.append (wellFormed_of_sumOf hSum)
          simpa using hNew

------------------------------------------------------------
-- Retaining Variants
------------------------------------------------------------

/- The members that the variants of a sum type make. -/
def SumType.members
    (sum : SumType) : List Member :=
  sum.variants.map fun v => ⟨v.node, sum.category, v.wireName⟩

/-
  What is kept of variants: those with a declared node type that
  is not yet a member, each of which makes a member.
-/
theorem retainVariants_spec
    {declared : String → Bool}
    {sum : SumType}
    {members after : List Member}
    {variants kept : List Variant}
    {warnings : List Warning}
    (h :
      retainVariants declared sum members variants =
        (kept, after, warnings)) :
    kept ⊆ variants ∧
      (∀ v ∈ kept, declared v.node = true) ∧
      after = members ++ { sum with variants := kept }.members ∧
      ((members.map Member.node).Nodup →
        (after.map Member.node).Nodup) := by
  induction variants generalizing members kept after warnings with
  | nil =>
      cases h
      exact ⟨List.Subset.refl _, nofun, (List.append_nil _).symm,
        id⟩
  | cons v variants ih =>
      unfold retainVariants at h
      dsimp only at h
      split at h
      · cases h
        rcases ih rfl with ⟨hKept, hDeclared, hAfter, hNodup⟩
        exact ⟨List.subset_cons_of_subset _ hKept, hDeclared, hAfter,
          hNodup⟩
      · rename_i hDeclares
        split at h
        · cases h
          rcases ih rfl with ⟨hKept, hDeclared, hAfter, hNodup⟩
          exact ⟨List.subset_cons_of_subset _ hKept, hDeclared,
            hAfter, hNodup⟩
        · rename_i hNew
          cases h
          rcases ih rfl with ⟨hKept, hDeclared, hAfter, hNodup⟩
          refine ⟨List.cons_subset_cons v hKept, ?_, ?_, ?_⟩
          · rw [List.forall_mem_cons]
            exact ⟨by simpa using hDeclares, hDeclared⟩
          · rw [hAfter, List.append_assoc]
            rfl
          · intro hBefore
            apply hNodup
            apply nodup_map_append hBefore
            simpa using hNew

/- A sum type that has lost variants at most. -/
structure SumType.Narrows
    (kept sum : SumType) : Prop where
  category : kept.category = sum.category
  tag : kept.tag = sum.tag
  variants : kept.variants ⊆ sum.variants

/-
  What is kept of sum types: their variants make the members, and
  no node type is a member twice.
-/
theorem retainAll_spec
    {declared : String → Bool}
    {members after : List Member}
    {sums kept : List SumType}
    {warnings : List Warning}
    (h :
      retainAll declared members sums = (kept, after, warnings)) :
    List.Forall₂ SumType.Narrows kept sums ∧
      (∀ sum ∈ kept, ∀ v ∈ sum.variants,
        declared v.node = true) ∧
      after = members ++ kept.flatMap SumType.members ∧
      ((members.map Member.node).Nodup →
        (after.map Member.node).Nodup) := by
  induction sums generalizing members kept after warnings with
  | nil =>
      cases h
      exact ⟨.nil, nofun, (List.append_nil _).symm, id⟩
  | cons sum sums ih =>
      unfold retainAll at h
      rcases hVariants :
        retainVariants declared sum members sum.variants with
        ⟨variants, members', warnings'⟩
      rcases hSums : retainAll declared members' sums with
        ⟨kept', after', others⟩
      rw [hVariants] at h
      dsimp only at h
      rw [hSums] at h
      cases h
      rcases retainVariants_spec hVariants with
        ⟨hKept, hDeclared, hMembers, hNodup⟩
      rcases ih hSums with ⟨hRest, hDeclared', hAfter, hNodup'⟩
      refine ⟨.cons ⟨rfl, rfl, hKept⟩ hRest, ?_, ?_,
        fun hBefore => hNodup' (hNodup hBefore)⟩
      · rw [List.forall_mem_cons]
        exact ⟨hDeclared, hDeclared'⟩
      · rw [hAfter, hMembers, List.flatMap_cons,
          List.append_assoc]

theorem SumType.WellFormed.narrow
    {kept sum : SumType}
    (h : sum.WellFormed)
    (hNarrows : kept.Narrows sum) :
    kept.WellFormed := by
  constructor
  · rw [hNarrows.category, hNarrows.tag]
    exact h.tagged
  · exact fun v hMem => h.named v (hNarrows.variants hMem)

/- Sum types that have lost variants are well formed still. -/
theorem SumsWellFormed.narrow
    {kept sums : List SumType}
    (h : SumsWellFormed sums)
    (hNarrows : List.Forall₂ SumType.Narrows kept sums) :
    SumsWellFormed kept := by
  have hCategories :
      kept.map SumType.category = sums.map SumType.category := by
    rw [← List.forall₂_eq_eq_eq, List.forall₂_map_left_iff,
      List.forall₂_map_right_iff]
    exact hNarrows.imp fun _ _ hSum => hSum.category
  refine ⟨hCategories ▸ h.categories, ?_⟩
  have hEach := h.each
  clear h hCategories
  induction hNarrows with
  | nil => exact nofun
  | cons hFirst _ ih =>
      rw [List.forall_mem_cons] at hEach ⊢
      exact ⟨hEach.1.narrow hFirst, ih hEach.2⟩

------------------------------------------------------------
-- Structures
------------------------------------------------------------

theorem mem_insertStruct
    {decl d : StructDecl}
    {structs : List StructDecl}
    (h : d ∈ insertStruct decl structs) :
    d = decl ∨ d ∈ structs := by
  induction structs with
  | nil => simpa [insertStruct] using h
  | cons first structs ih =>
      unfold insertStruct at h
      split at h
      · rcases List.mem_cons.mp h with rfl | hRest
        · exact .inl rfl
        · exact .inr (List.mem_cons_of_mem _ hRest)
      · rcases List.mem_cons.mp h with rfl | hRest
        · exact .inr List.mem_cons_self
        · rcases ih hRest with hEq | hMem
          · exact .inl hEq
          · exact .inr (List.mem_cons_of_mem _ hMem)

theorem nodup_insertStruct
    {decl : StructDecl}
    {structs : List StructDecl}
    (h : (structs.map StructDecl.name).Nodup) :
    ((insertStruct decl structs).map StructDecl.name).Nodup := by
  induction structs with
  | nil => exact List.nodup_singleton _
  | cons first structs ih =>
      rw [List.map_cons, List.nodup_cons] at h
      unfold insertStruct
      split
      · rename_i hName
        rw [List.map_cons, List.nodup_cons, ← hName]
        exact h
      · rename_i hName
        rw [List.map_cons, List.nodup_cons]
        refine ⟨?_, ih h.2⟩
        intro hMem
        rcases List.mem_map.mp hMem with ⟨d, hInserted, hSame⟩
        rcases mem_insertStruct hInserted with rfl | hRest
        · exact hName hSame.symm
        · exact h.1 (List.mem_map.mpr ⟨d, hRest, hSame⟩)

/- Node types are structures of the source. -/
theorem mem_collectStructs
    {decls : List StructDecl}
    {d : StructDecl}
    (h : d ∈ (collectStructs decls).1) :
    d ∈ decls := by
  have hFold :
      ∀ (ds structs : List StructDecl),
        d ∈ ds.foldl (fun structs d => insertStruct d structs)
            structs →
          d ∈ structs ∨ d ∈ ds := by
    intro ds
    induction ds with
    | nil => exact fun structs hMem => .inl hMem
    | cons first ds ih =>
        intro structs hMem
        rcases ih _ hMem with hInserted | hRest
        · rcases mem_insertStruct hInserted with rfl | hBefore
          · exact .inr List.mem_cons_self
          · exact .inl hBefore
        · exact .inr (List.mem_cons_of_mem _ hRest)
  rcases hFold _ [] h with hNil | hMem
  · cases hNil
  · exact (List.mem_filter.mp hMem).1

/- Node types have different names. -/
theorem nodup_collectStructs
    (decls : List StructDecl) :
    ((collectStructs decls).1.map StructDecl.name).Nodup := by
  have hFold :
      ∀ (ds structs : List StructDecl),
        (structs.map StructDecl.name).Nodup →
          ((ds.foldl (fun structs d => insertStruct d structs)
            structs).map StructDecl.name).Nodup := by
    intro ds
    induction ds with
    | nil => exact fun structs h => h
    | cons d ds ih =>
        intro structs h
        exact ih _ (nodup_insertStruct h)
  exact hFold _ [] List.nodup_nil

end TreeWire
