import TreeWire.Proofs.Schema.Membership

/-
  The passes over a source, one declaration after the other.

  A pass keeps declarations in their order, and warns of its own
  declarations only.  So where the names of declarations are
  different, the warnings on one of them are those that the pass
  gives when it comes to it: one if the declaration is dropped,
  and none if it is kept.

  Key definitions include:
    * `warned`
    * `KeptOrWarned`
    * `SumStep`

  Main statements:
    * `warned_flatMap`
    * `warned_failures`
    * `collectSums_accounts`
    * `exists_sumOf_of_mem`
    * `collectStructs_accounts`
    * `retainVariants_accounts`
    * `retainAll_accounts`
    * `exists_sublist_of_mem_retainAll`
-/

namespace TreeWire

open Declaration

------------------------------------------------------------
-- Counting Warnings
------------------------------------------------------------

/- How many warnings name a type, or a part of it. -/
def warned
    (warnings : List Warning)
    (node : String)
    (part : Option String) : Nat :=
  warnings.countP fun w => w.node = node ∧ w.field = part

/- A declaration is kept without a warning, or has just one. -/
def KeptOrWarned
    (kept : Prop)
    (count : Nat) : Prop :=
  kept ∧ count = 0 ∨ ¬ kept ∧ count = 1

section

variable {node : String} {part : Option String}

theorem warned_append
    (ws others : List Warning) :
    warned (ws ++ others) node part =
      warned ws node part + warned others node part :=
  List.countP_append

theorem warned_cons
    (w : Warning)
    (ws : List Warning) :
    warned (w :: ws) node part =
      warned ws node part +
        if w.node = node ∧ w.field = part then 1 else 0 := by
  simp [warned, List.countP_cons]

theorem warned_eq_zero
    {ws : List Warning}
    (h : ∀ w ∈ ws, w.node = node → w.field ≠ part) :
    warned ws node part = 0 := by
  rw [warned, List.countP_eq_zero]
  intro w hMem hBoth
  rw [decide_eq_true_eq] at hBoth
  exact h w hMem hBoth.1 hBoth.2

/-
  Where each declaration has warnings of its own name only, and
  names are different, those of a name are those of one of them.
-/
theorem warned_flatMap
    {α : Type}
    {key : α → String}
    {own : α → List Warning}
    {as : List α}
    {a : α}
    (hNodup : (as.map key).Nodup)
    (hOwn : ∀ b ∈ as, ∀ w ∈ own b, w.node = key b)
    (hMem : a ∈ as) :
    warned (as.flatMap own) (key a) part =
      warned (own a) (key a) part := by
  induction as with
  | nil => cases hMem
  | cons b as ih =>
      rw [List.map_cons, List.nodup_cons] at hNodup
      rw [List.forall_mem_cons] at hOwn
      rw [List.flatMap_cons, warned_append]
      rcases List.mem_cons.mp hMem with rfl | hRest
      · have hOthers :
            warned (as.flatMap own) (key a) part = 0 := by
          apply warned_eq_zero
          intro w hWarning hNode
          rcases List.mem_flatMap.mp hWarning with
            ⟨c, hLater, hOf⟩
          rw [hOwn.2 c hLater w hOf] at hNode
          exact absurd (hNode ▸ List.mem_map_of_mem hLater)
            hNodup.1
        rw [hOthers, Nat.add_zero]
      · have hFirst : warned (own b) (key a) part = 0 := by
          apply warned_eq_zero
          intro w hWarning hNode
          rw [hOwn.1 w hWarning] at hNode
          exact absurd (hNode ▸ List.mem_map_of_mem hRest)
            hNodup.1
        rw [hFirst, Nat.zero_add]
        exact ih hNodup.2 hOwn.2 hRest

end

------------------------------------------------------------
-- Parts That Failed
------------------------------------------------------------

section

variable {α : Type} {node : String}
variable {results : List (String × Except Reason α)}

/- A warning on a part names the type and one of its parts. -/
theorem mem_failures
    {w : Warning}
    (h : w ∈ failures node results) :
    w.node = node ∧ ∃ name ∈ results.map Prod.fst,
      w.field = some name := by
  induction results with
  | nil => cases h
  | cons result results ih =>
      rcases result with ⟨name, r⟩
      cases r with
      | ok a =>
          rcases ih h with ⟨hNode, other, hMem, hField⟩
          exact ⟨hNode, other, List.mem_cons_of_mem _ hMem, hField⟩
      | error reason =>
          rcases List.mem_cons.mp h with rfl | hRest
          · exact ⟨rfl, name, List.mem_cons_self, rfl⟩
          · rcases ih hRest with ⟨hNode, other, hMem, hField⟩
            exact ⟨hNode, other, List.mem_cons_of_mem _ hMem,
              hField⟩

theorem warned_failures_type :
    warned (failures node results) node none = 0 := by
  apply warned_eq_zero
  intro w hMem _ hNone
  rcases mem_failures hMem with ⟨_, name, _, hField⟩
  rw [hField] at hNone
  cases hNone

theorem warned_failures_of_not_mem
    {name : String}
    (h : name ∉ results.map Prod.fst) :
    warned (failures node results) node (some name) = 0 := by
  apply warned_eq_zero
  intro w hMem _ hSome
  rcases mem_failures hMem with ⟨_, other, hOther, hField⟩
  rw [hField] at hSome
  cases hSome
  exact h hOther

/- A part that failed has one warning, any other part has none. -/
theorem warned_failures
    {name : String}
    {r : Except Reason α}
    (hNodup : (results.map Prod.fst).Nodup)
    (hMem : (name, r) ∈ results) :
    warned (failures node results) node (some name) =
      if r.isOk then 0 else 1 := by
  induction results with
  | nil => cases hMem
  | cons result results ih =>
      rcases result with ⟨first, result⟩
      rw [List.map_cons, List.nodup_cons] at hNodup
      rcases List.mem_cons.mp hMem with hFirst | hRest
      · cases hFirst
        have hOthers :
            warned (failures node results) node (some name) = 0 :=
          warned_failures_of_not_mem hNodup.1
        cases r with
        | ok a => exact hOthers
        | error reason =>
            rw [failures, warned_cons, hOthers, if_pos ⟨rfl, rfl⟩]
            rfl
      · have hName : first ≠ name := by
          intro hEq
          subst hEq
          exact hNodup.1 (List.mem_map.mpr ⟨_, hRest, rfl⟩)
        have hLater := ih hNodup.2 hRest
        cases result with
        | ok a => exact hLater
        | error reason =>
            have hOther : ¬ (node = node ∧ some first = some name) :=
              fun hBoth => hName (Option.some.inj hBoth.2)
            rw [failures, warned_cons, hLater, if_neg hOther,
              Nat.add_zero]

end

------------------------------------------------------------
-- Enumerations
------------------------------------------------------------

/- Whether the options of an enumeration have a tag of a sum. -/
def Declaration.EnumDecl.IsTagged
    (decl : EnumDecl) : Prop :=
  ∃ options,
    WireOptions.ofAttributes decl.attributes = .ok options ∧
      (options.tag = some "expression_name" ∨
        options.tag = some "statement_name")

/- The variants of an enumeration with what they stand for. -/
def variantResults
    (decl : EnumDecl) : List (String × Except Reason Variant) :=
  decl.variants.map fun v => (v.name.text, variantOf v)

theorem sumOf_some
    {decl : EnumDecl}
    {sum : SumType}
    {warnings : List Warning}
    (h : sumOf decl = (some sum, warnings)) :
    sum.name = decl.name ∧
      sum.variants =
        successes ((variantResults decl).map Prod.snd) ∧
      warnings = failures decl.name (variantResults decl) := by
  unfold sumOf at h
  split at h
  · cases h
  split at h
  · cases h
  split at h
  · cases h
  split at h
  · cases h
  cases h
  exact ⟨rfl, rfl, rfl⟩

/- The variants of a sum are named as those of its enumeration. -/
theorem names_variantResults
    (decl : EnumDecl) :
    ((successes ((variantResults decl).map Prod.snd)).map
      Variant.name).Sublist (decl.variants.map (·.name.text)) := by
  rw [variantResults]
  induction decl.variants with
  | nil => exact .slnil
  | cons v variants ih =>
      simp only [List.map_cons]
      cases hVariant : variantOf v with
      | error reason => exact ih.cons _
      | ok found =>
          rw [← (declaresName_of_variantOf hVariant).1]
          exact ih.cons_cons _

/- An enumeration with a tag is a sum type, or it is generic. -/
theorem sumOf_of_tagged
    {decl : EnumDecl}
    (h : decl.IsTagged) :
    sumOf decl = (none, [⟨decl.name, none, .genericSum⟩]) ∨
      ∃ sum, sumOf decl =
        (some sum, failures decl.name (variantResults decl)) := by
  rcases h with ⟨options, hOptions, hTag⟩
  have hCategory :
      ∃ tag category,
        options.tag = some tag ∧
          Category.ofTag? tag = some category := by
    rcases hTag with hTag | hTag
    · exact ⟨_, .expression, hTag, rfl⟩
    · exact ⟨_, .statement, hTag, rfl⟩
  rcases hCategory with ⟨tag, category, hSome, hOfTag⟩
  unfold sumOf
  simp only [hOptions, hSome, hOfTag]
  split
  · exact .inl rfl
  · exact .inr ⟨_, rfl⟩

theorem node_of_mem_sumOf
    {decl : EnumDecl}
    {found : Option SumType}
    {warnings : List Warning}
    {w : Warning}
    (h : sumOf decl = (found, warnings))
    (hMem : w ∈ warnings) :
    w.node = decl.name := by
  cases found with
  | some sum =>
      rw [(sumOf_some h).2.2] at hMem
      exact (mem_failures hMem).1
  | none =>
      unfold sumOf at h
      repeat' split at h
      all_goals cases h
      · rw [List.mem_singleton.mp hMem]
      · cases hMem
      · cases hMem
      · rw [List.mem_singleton.mp hMem]

/-
  What an enumeration does to the sums found before it, and the
  warnings on it.
-/
inductive SumStep
    (decl : EnumDecl) :
    List SumType → List SumType → List Warning → Prop where
  | noSum {found warnings}
      (h : sumOf decl = (none, warnings)) :
      SumStep decl found found warnings
  | taken {found sum warnings}
      (h : sumOf decl = (some sum, warnings)) :
      SumStep decl found found
        (warnings ++ [⟨decl.name, none, .tagTaken sum.tag⟩])
  | added {found sum warnings}
      (h : sumOf decl = (some sum, warnings)) :
      SumStep decl found (found ++ [sum]) warnings

/- One enumeration after the other. -/
theorem collectSums_cons
    (found : List SumType)
    (decl : EnumDecl)
    (decls : List EnumDecl) :
    ∃ after own,
      SumStep decl found after own ∧
        collectSums found (decl :: decls) =
          ((collectSums after decls).1,
            own ++ (collectSums after decls).2) := by
  rw [collectSums]
  split
  · rename_i warnings hSum
    exact ⟨_, _, .noSum hSum, rfl⟩
  · rename_i sum warnings hSum
    split
    · refine ⟨_, _, .taken hSum, ?_⟩
      rw [(sumOf_some hSum).1, List.append_assoc]
      rfl
    · exact ⟨_, _, .added hSum, rfl⟩

namespace SumStep

variable {decl : EnumDecl} {before after : List SumType}
variable {own : List Warning}

/- The warnings of a step are on its enumeration. -/
theorem node
    (h : SumStep decl before after own) :
    ∀ w ∈ own, w.node = decl.name := by
  intro w hMem
  cases h with
  | noSum hSum => exact node_of_mem_sumOf hSum hMem
  | taken hSum =>
      rcases List.mem_append.mp hMem with hOwn | hLast
      · exact node_of_mem_sumOf hSum hOwn
      · rw [List.mem_singleton.mp hLast]
  | added hSum => exact node_of_mem_sumOf hSum hMem

/- A step adds the name of its enumeration, or none. -/
theorem names
    (h : SumStep decl before after own)
    (later : List String) :
    (after.map SumType.name ++ later).Sublist
      (before.map SumType.name ++ decl.name :: later) := by
  have hSkip := (List.sublist_cons_self decl.name later).append_left
    (before.map SumType.name)
  cases h with
  | noSum hSum => exact hSkip
  | taken hSum => exact hSkip
  | added hSum =>
      rw [List.map_append, List.append_assoc, List.map_singleton,
        (sumOf_some hSum).1]
      exact List.Sublist.refl _

theorem isPrefix
    (h : SumStep decl before after own) :
    before <+: after := by
  cases h with
  | noSum hSum => exact List.prefix_refl _
  | taken hSum => exact List.prefix_refl _
  | added hSum => exact List.prefix_append _ _

/-
  An enumeration with a tag becomes a sum, or there is one
  warning on it.
-/
theorem accounts
    (h : SumStep decl before after own)
    (hTagged : decl.IsTagged)
    (hFresh : decl.name ∉ before.map SumType.name) :
    KeptOrWarned (decl.name ∈ after.map SumType.name)
      (warned own decl.name none) := by
  rcases sumOf_of_tagged hTagged with hGeneric | ⟨sum, hFound⟩
  · cases h with
    | noSum hSum =>
        rw [hGeneric] at hSum
        cases hSum
        refine .inr ⟨hFresh, ?_⟩
        rw [warned_cons, if_pos ⟨rfl, rfl⟩]
        rfl
    | taken hSum =>
        rw [hGeneric] at hSum
        cases hSum
    | added hSum =>
        rw [hGeneric] at hSum
        cases hSum
  · cases h with
    | noSum hSum =>
        rw [hFound] at hSum
        cases hSum
    | taken hSum =>
        rw [hFound] at hSum
        cases hSum
        refine .inr ⟨hFresh, ?_⟩
        rw [warned_append, warned_failures_type, warned_cons,
          if_pos ⟨rfl, rfl⟩]
        rfl
    | added hSum =>
        rw [hFound] at hSum
        cases hSum
        refine .inl ⟨?_, warned_failures_type⟩
        rw [List.map_append, ← (sumOf_some hFound).1]
        exact List.mem_append_right _ List.mem_cons_self

/- A step that adds a name adds the sum of its enumeration. -/
theorem exists_added
    (h : SumStep decl before after own)
    (hFresh : decl.name ∉ before.map SumType.name)
    (hName : decl.name ∈ after.map SumType.name) :
    ∃ sum ∈ after, sumOf decl = (some sum, own) := by
  cases h with
  | noSum hSum => exact absurd hName hFresh
  | taken hSum => exact absurd hName hFresh
  | added hSum =>
      exact ⟨_, List.mem_append_right _ List.mem_cons_self, hSum⟩

end SumStep

/- No enumeration takes away what was found before it. -/
theorem isPrefix_collectSums
    (found : List SumType)
    (decls : List EnumDecl) :
    found <+: (collectSums found decls).1 := by
  induction decls generalizing found with
  | nil => exact List.prefix_refl _
  | cons decl decls ih =>
      rcases collectSums_cons found decl decls with
        ⟨after, own, hStep, hCollect⟩
      rw [hCollect]
      exact hStep.isPrefix.trans (ih after)

/- Sums are named as those before, or as enumerations. -/
theorem names_collectSums
    (found : List SumType)
    (decls : List EnumDecl) :
    ((collectSums found decls).1.map SumType.name).Sublist
      (found.map SumType.name ++ decls.map EnumDecl.name) := by
  induction decls generalizing found with
  | nil => simp [collectSums]
  | cons decl decls ih =>
      rcases collectSums_cons found decl decls with
        ⟨after, own, hStep, hCollect⟩
      rw [hCollect]
      exact (ih after).trans (hStep.names _)

/- The warnings of the pass are on its enumerations. -/
theorem node_collectSums
    {found : List SumType}
    {decls : List EnumDecl}
    {w : Warning}
    (h : w ∈ (collectSums found decls).2) :
    w.node ∈ decls.map EnumDecl.name := by
  induction decls generalizing found with
  | nil => cases h
  | cons decl decls ih =>
      rcases collectSums_cons found decl decls with
        ⟨after, own, hStep, hCollect⟩
      rw [hCollect, List.mem_append] at h
      rcases h with hOwn | hLater
      · rw [hStep.node w hOwn]
        exact List.mem_cons_self
      · exact List.mem_cons_of_mem _ (ih hLater)

/- Every sum is that of an enumeration. -/
theorem exists_sumOf_of_mem
    {found : List SumType}
    {decls : List EnumDecl}
    {sum : SumType}
    (h : sum ∈ (collectSums found decls).1) :
    sum ∈ found ∨ ∃ decl ∈ decls, (sumOf decl).1 = some sum := by
  induction decls generalizing found with
  | nil => exact .inl h
  | cons decl decls ih =>
      rcases collectSums_cons found decl decls with
        ⟨after, own, hStep, hCollect⟩
      rw [hCollect] at h
      rcases ih h with hAfter | ⟨other, hMem, hSum⟩
      · cases hStep with
        | noSum _ => exact .inl hAfter
        | taken _ => exact .inl hAfter
        | added hSum =>
            rcases List.mem_append.mp hAfter with hFound | hLast
            · exact .inl hFound
            · rw [List.mem_singleton.mp hLast]
              exact .inr ⟨decl, List.mem_cons_self,
                congrArg Prod.fst hSum⟩
      · exact .inr ⟨other, List.mem_cons_of_mem _ hMem, hSum⟩

/-
  Where names are different, the pass comes to an enumeration
  with no sum of its name, and after it adds no such sum and no
  warning on it.
-/
theorem collectSums_accounts
    {decls : List EnumDecl}
    {decl : EnumDecl}
    (found : List SumType)
    (hNodup :
      (found.map SumType.name ++ decls.map EnumDecl.name).Nodup)
    (hMem : decl ∈ decls) :
    ∃ before after own,
      SumStep decl before after own ∧
        decl.name ∉ before.map SumType.name ∧
        after <+: (collectSums found decls).1 ∧
        (decl.name ∈ (collectSums found decls).1.map SumType.name →
          decl.name ∈ after.map SumType.name) ∧
        ∀ part,
          warned (collectSums found decls).2 decl.name part =
            warned own decl.name part := by
  induction decls generalizing found with
  | nil => cases hMem
  | cons first decls ih =>
      rcases collectSums_cons found first decls with
        ⟨after, own, hStep, hCollect⟩
      rw [hCollect]
      rw [List.map_cons] at hNodup
      have hApart := List.nodup_append.mp hNodup
      have hFresh := (List.nodup_cons.mp hApart.2.1).1
      rcases List.mem_cons.mp hMem with rfl | hRest
      · refine ⟨found, after, own, hStep, ?_,
          isPrefix_collectSums after decls, ?_, ?_⟩
        · intro hFound
          exact hApart.2.2 _ hFound _ List.mem_cons_self rfl
        · intro hName
          have hNames := (names_collectSums after decls).subset hName
          rcases List.mem_append.mp hNames with hAfter | hLater
          · exact hAfter
          · exact absurd hLater hFresh
        · intro part
          rw [warned_append, Nat.add_eq_left]
          apply warned_eq_zero
          intro w hLater hNode
          exact absurd (hNode ▸ node_collectSums hLater) hFresh
      · rcases ih after (hNodup.sublist (hStep.names _)) hRest with
          ⟨before', after', own', hStep', hBefore, hAfter, hName,
            hWarned⟩
        refine ⟨before', after', own', hStep', hBefore, hAfter,
          hName, ?_⟩
        intro part
        rw [warned_append, hWarned, Nat.add_eq_right]
        apply warned_eq_zero
        intro w hOwn hNode
        rw [hStep.node w hOwn] at hNode
        exact absurd (hNode ▸ List.mem_map_of_mem hRest) hFresh

------------------------------------------------------------
-- Structures
------------------------------------------------------------

theorem insertStruct_of_not_mem
    {decl : StructDecl}
    {structs : List StructDecl}
    (h : decl.name ∉ structs.map StructDecl.name) :
    insertStruct decl structs = structs ++ [decl] := by
  induction structs with
  | nil => rfl
  | cons first structs ih =>
      rw [List.map_cons, List.mem_cons, not_or] at h
      rw [insertStruct, if_neg (fun hName => h.1 hName.symm),
        ih h.2, List.cons_append]

/- Structures with different names are all put at the end. -/
theorem foldl_insertStruct
    {decls structs : List StructDecl}
    (hNodup : ((structs ++ decls).map StructDecl.name).Nodup) :
    decls.foldl (fun structs d => insertStruct d structs) structs =
      structs ++ decls := by
  induction decls generalizing structs with
  | nil => exact (List.append_nil _).symm
  | cons decl decls ih =>
      have hSplit : structs ++ decl :: decls =
          structs ++ [decl] ++ decls := by
        rw [List.append_assoc, List.singleton_append]
      have hNew : decl.name ∉ structs.map StructDecl.name := by
        intro hMem
        rw [List.map_append] at hNodup
        exact (List.nodup_append.mp hNodup).2.2 _ hMem _
          List.mem_cons_self rfl
      rw [List.foldl_cons, insertStruct_of_not_mem hNew, hSplit]
      apply ih
      rw [← hSplit]
      exact hNodup

section

variable {decls : List StructDecl}

/- Where names are different, the node types are all that fit. -/
theorem collectStructs_fst
    (hNodup : (decls.map StructDecl.name).Nodup) :
    (collectStructs decls).1 =
      decls.filter fun d => (structProblem? d).isNone := by
  rw [collectStructs]
  exact foldl_insertStruct
    (hNodup.sublist (List.filter_sublist.map StructDecl.name))

theorem mem_collectStructs_snd
    {w : Warning}
    (h : w ∈ (collectStructs decls).2) :
    w.field = none ∧ w.node ∈ decls.map StructDecl.name := by
  rw [collectStructs, List.mem_filterMap] at h
  rcases h with ⟨d, hMem, hSome⟩
  rcases Option.map_eq_some_iff.mp hSome with ⟨reason, _, rfl⟩
  exact ⟨rfl, List.mem_map_of_mem hMem⟩

/- A structure is a node type, or there is one warning on it. -/
theorem collectStructs_accounts
    {decl : StructDecl}
    (hNodup : (decls.map StructDecl.name).Nodup)
    (hMem : decl ∈ decls) :
    KeptOrWarned
      (decl.name ∈ (collectStructs decls).1.map StructDecl.name)
      (warned (collectStructs decls).2 decl.name none) := by
  have hWarned :
      warned (collectStructs decls).2 decl.name none =
        warned ((structProblem? decl).map fun reason =>
          (⟨decl.name, none, reason⟩ : Warning)).toList
          decl.name none := by
    rw [collectStructs, List.filterMap_eq_flatMap_toList]
    apply warned_flatMap hNodup _ hMem
    intro d _ w hOwn
    rcases Option.map_eq_some_iff.mp (Option.mem_toList.mp hOwn)
      with ⟨reason, _, rfl⟩
    rfl
  have hKept :
      decl.name ∈ (collectStructs decls).1.map StructDecl.name ↔
        structProblem? decl = none := by
    rw [collectStructs_fst hNodup, List.mem_map]
    constructor
    · rintro ⟨d, hFilter, hName⟩
      rw [List.mem_filter, Option.isNone_iff_eq_none] at hFilter
      rw [← List.inj_on_of_nodup_map hNodup hFilter.1 hMem hName]
      exact hFilter.2
    · intro hNone
      exact ⟨decl, List.mem_filter.mpr
        ⟨hMem, Option.isNone_iff_eq_none.mpr hNone⟩, rfl⟩
  rw [hWarned, KeptOrWarned, hKept]
  cases structProblem? decl with
  | none => exact .inl ⟨rfl, rfl⟩
  | some reason =>
      refine .inr ⟨nofun, ?_⟩
      simp [warned]

end

------------------------------------------------------------
-- Variants
------------------------------------------------------------

section

variable {declared : String → Bool} {sum : SumType}

/- A variant is dropped with a warning, or kept without one. -/
theorem retainVariants_cons
    (members : List Member)
    (v : Variant)
    (variants : List Variant) :
    (∃ reason,
      let rest := retainVariants declared sum members variants
      retainVariants declared sum members (v :: variants) =
        (rest.1, rest.2.1,
          ⟨sum.name, some v.name, reason⟩ :: rest.2.2)) ∨
    ∃ members',
      let rest := retainVariants declared sum members' variants
      retainVariants declared sum members (v :: variants) =
        (v :: rest.1, rest.2.1, rest.2.2) := by
  rw [retainVariants]
  dsimp only
  split
  · exact .inl ⟨_, rfl⟩
  · split
    · exact .inl ⟨_, rfl⟩
    · exact .inr ⟨_, rfl⟩

theorem mem_retainVariants_warnings
    {members : List Member}
    {variants : List Variant}
    {w : Warning}
    (h : w ∈
      (retainVariants declared sum members variants).2.2) :
    w.node = sum.name ∧ ∃ v ∈ variants, w.field = some v.name := by
  induction variants generalizing members with
  | nil => cases h
  | cons v variants ih =>
      rcases retainVariants_cons members v variants with
        ⟨reason, hDropped⟩ | ⟨members', hKept⟩
      · rw [hDropped] at h
        rcases List.mem_cons.mp h with rfl | hLater
        · exact ⟨rfl, v, List.mem_cons_self, rfl⟩
        · rcases ih hLater with ⟨hNode, u, hMem, hField⟩
          exact ⟨hNode, u, List.mem_cons_of_mem _ hMem, hField⟩
      · rw [hKept] at h
        rcases ih h with ⟨hNode, u, hMem, hField⟩
        exact ⟨hNode, u, List.mem_cons_of_mem _ hMem, hField⟩

theorem warned_retainVariants_of_not_mem
    {members : List Member}
    {variants : List Variant}
    {name : String}
    (h : name ∉ variants.map Variant.name) :
    warned (retainVariants declared sum members variants).2.2
      sum.name (some name) = 0 := by
  apply warned_eq_zero
  intro w hMem _ hField
  rcases mem_retainVariants_warnings hMem with
    ⟨_, v, hVariant, hName⟩
  rw [hName] at hField
  cases hField
  exact h (List.mem_map_of_mem hVariant)

/-
  Of variants with different names each is kept, or there is one
  warning on it.
-/
theorem retainVariants_accounts
    {members : List Member}
    {variants : List Variant}
    {v : Variant}
    (hNodup : (variants.map Variant.name).Nodup)
    (hMem : v ∈ variants) :
    KeptOrWarned
      (v.name ∈ (retainVariants declared sum members variants).1.map
        Variant.name)
      (warned (retainVariants declared sum members variants).2.2
        sum.name (some v.name)) := by
  induction variants generalizing members with
  | nil => cases hMem
  | cons first variants ih =>
      rw [List.map_cons, List.nodup_cons] at hNodup
      rcases List.mem_cons.mp hMem with rfl | hRest
      · -- The rest of the variants says nothing about this one.
        have hFirst (members : List Member) :
            v.name ∉ (retainVariants declared sum members
                variants).1.map Variant.name ∧
              warned (retainVariants declared sum members
                variants).2.2 sum.name (some v.name) = 0 := by
          refine ⟨fun hKept => hNodup.1 ?_,
            warned_retainVariants_of_not_mem hNodup.1⟩
          exact List.map_subset _
            (retainVariants_spec rfl).1 hKept
        rcases retainVariants_cons members v variants with
          ⟨reason, hDropped⟩ | ⟨members', hKept⟩
        · rw [hDropped]
          refine .inr ⟨(hFirst members).1, ?_⟩
          rw [warned_cons, (hFirst members).2, if_pos ⟨rfl, rfl⟩]
        · rw [hKept]
          exact .inl ⟨List.mem_cons_self, (hFirst members').2⟩
      · have hName : first.name ≠ v.name := by
          intro hEq
          rw [hEq] at hNodup
          exact hNodup.1 (List.mem_map_of_mem hRest)
        rcases retainVariants_cons members first variants with
          ⟨reason, hDropped⟩ | ⟨members', hKept⟩
        · have hOther :
              ¬ (sum.name = sum.name ∧
                some first.name = some v.name) :=
            fun hBoth => hName (Option.some.inj hBoth.2)
          rw [hDropped, warned_cons, if_neg hOther, Nat.add_zero]
          exact ih hNodup.2 hRest
        · rw [hKept, List.map_cons, KeptOrWarned, List.mem_cons,
            or_iff_right hName.symm]
          exact ih hNodup.2 hRest

/- Variants are kept in declaration order. -/
theorem retainVariants_sublist
    (members : List Member)
    (variants : List Variant) :
    (retainVariants declared sum members variants).1.Sublist
      variants := by
  induction variants generalizing members with
  | nil => exact .slnil
  | cons v variants ih =>
      rcases retainVariants_cons members v variants with
        ⟨reason, hDropped⟩ | ⟨members', hKept⟩
      · rw [hDropped]
        exact (ih members).cons v
      · rw [hKept]
        exact (ih members').cons_cons v

/- Every sum is one from before that has lost variants at most. -/
theorem exists_sublist_of_mem_retainAll
    {members : List Member}
    {sums : List SumType}
    (h : sum ∈ (retainAll declared members sums).1) :
    ∃ whole ∈ sums,
      sum.name = whole.name ∧
        sum.variants.Sublist whole.variants := by
  induction sums generalizing members with
  | nil => cases h
  | cons first sums ih =>
      rcases List.mem_cons.mp h with rfl | hRest
      · exact ⟨first, List.mem_cons_self, rfl,
          retainVariants_sublist _ _⟩
      · rcases ih hRest with ⟨whole, hMem, hWhole⟩
        exact ⟨whole, List.mem_cons_of_mem _ hMem, hWhole⟩

/- The sums before and after have the same names. -/
theorem names_retainAll
    (declared : String → Bool)
    (members : List Member)
    (sums : List SumType) :
    (retainAll declared members sums).1.map SumType.name =
      sums.map SumType.name := by
  induction sums generalizing members with
  | nil => rfl
  | cons sum sums ih => exact congrArg (sum.name :: ·) (ih _)

theorem mem_retainAll_warnings
    {members : List Member}
    {sums : List SumType}
    {w : Warning}
    (h : w ∈ (retainAll declared members sums).2.2) :
    w.node ∈ sums.map SumType.name ∧ w.field ≠ none := by
  induction sums generalizing members with
  | nil => cases h
  | cons sum sums ih =>
      rcases List.mem_append.mp h with hFirst | hLater
      · rcases mem_retainVariants_warnings hFirst with
          ⟨hNode, v, _, hField⟩
        rw [hNode, hField]
        exact ⟨List.mem_cons_self, nofun⟩
      · rcases ih hLater with ⟨hNode, hField⟩
        exact ⟨List.mem_cons_of_mem _ hNode, hField⟩

/-
  Of the variants of a sum each is kept in the sum, or there is
  one warning on it.  There is no warning on any other part of
  the sum.
-/
theorem retainAll_accounts
    {members : List Member}
    {sums : List SumType}
    (hNodup : (sums.map SumType.name).Nodup)
    (hMem : sum ∈ sums)
    (hVariants : (sum.variants.map Variant.name).Nodup) :
    ∃ kept ∈ (retainAll declared members sums).1,
      kept.name = sum.name ∧
        kept.variants ⊆ sum.variants ∧
        (∀ v ∈ sum.variants,
          KeptOrWarned (v.name ∈ kept.variants.map Variant.name)
            (warned (retainAll declared members sums).2.2
              sum.name (some v.name))) ∧
        ∀ name ∉ sum.variants.map Variant.name,
          warned (retainAll declared members sums).2.2
            sum.name (some name) = 0 := by
  induction sums generalizing members with
  | nil => cases hMem
  | cons first sums ih =>
      rw [List.map_cons, List.nodup_cons] at hNodup
      rw [retainAll]
      dsimp only
      rcases List.mem_cons.mp hMem with rfl | hRest
      · have hOthers (part : Option String) (members : List Member) :
            warned (retainAll declared members sums).2.2
              sum.name part = 0 := by
          apply warned_eq_zero
          intro w hLater hNode
          exact absurd
            (hNode ▸ (mem_retainAll_warnings hLater).1) hNodup.1
        simp only [warned_append, hOthers, Nat.add_zero]
        exact ⟨_, List.mem_cons_self, rfl,
          (retainVariants_spec rfl).1,
          fun _ hVariant => retainVariants_accounts hVariants hVariant,
          fun _ hName => warned_retainVariants_of_not_mem hName⟩
      · have hOthers (part : Option String) :
            warned (retainVariants declared first members
              first.variants).2.2 sum.name part = 0 := by
          apply warned_eq_zero
          intro w hFirst hNode
          rw [(mem_retainVariants_warnings hFirst).1] at hNode
          exact absurd (hNode ▸ List.mem_map_of_mem hRest) hNodup.1
        simp only [warned_append, hOthers, Nat.zero_add]
        rcases ih hNodup.2 hRest with ⟨kept, hKept, hAccounts⟩
        exact ⟨kept, List.mem_cons_of_mem _ hKept, hAccounts⟩

end

end TreeWire
