import Mathlib.Data.List.Perm.Basic
import TreeWire.Proofs.Declaration.Equality
import TreeWire.Proofs.Schema.Conservation
import TreeWire.Unit.DecoderUnit

/-
  The order of items and the units of sources.

  Where no category has two sums and no structure is carried by
  both, a sum keeps the same variants whatever stands around it.
  So the order of items is seen only among the node types of one
  category, and units of sources that agree on it are the same.

  Key definitions include:
    * `sumsOf`
    * `categoryIn`
    * `Separated`
    * `Reordered`
    * `Schema.SameOrder`

  Main statements:
    * `retainAll_apart`
    * `extractItems_reordered`
    * `unit_of_reordered_items`
-/

namespace TreeWire

open Declaration

------------------------------------------------------------
-- Orders of Items
------------------------------------------------------------

/- Whether an item declares a type. -/
def Declaration.Item.isType : Item → Bool
  | .other => false
  | _ => true

/- The sum types that enumerations among items are. -/
def sumsOf
    (items : List Item) : List SumType :=
  (enumsOf items).filterMap fun d => (sumOf d).1

/- Whether some variant of a sum carries a node type. -/
def SumType.carries
    (sum : SumType)
    (node : String) : Bool :=
  sum.variants.any fun v => v.node = node

/- The category that a structure has among items. -/
def categoryIn
    (items : List Item)
    (name : String) : Category :=
  (((sumsOf items).find? fun sum => sum.carries name).map
    SumType.category).getD .other

/- The structures among items that fit as node types. -/
def fittingStructs
    (items : List Item) : List StructDecl :=
  (structsOf items).filter fun d => (structProblem? d).isNone

/-
  Items whose structures have different names, with one sum of a
  category at most, and no structure that two sums carry.
-/
structure Separated
    (items : List Item) : Prop where
  names : ((structsOf items).map StructDecl.name).Nodup
  categories : ((sumsOf items).map SumType.category).Nodup
  carriers :
    ∀ d ∈ structsOf items, ∀ sum ∈ sumsOf items,
      ∀ other ∈ sumsOf items,
        sum.carries d.name = true → other.carries d.name = true →
          sum = other

instance (items : List Item) : Decidable (Separated items) :=
  decidable_of_iff
    (((structsOf items).map StructDecl.name).Nodup ∧
      ((sumsOf items).map SumType.category).Nodup ∧
      ∀ d ∈ structsOf items, ∀ sum ∈ sumsOf items,
        ∀ other ∈ sumsOf items,
          sum.carries d.name = true → other.carries d.name = true →
            sum = other)
    ⟨fun h => ⟨h.1, h.2.1, h.2.2⟩,
      fun h => ⟨h.names, h.categories, h.carriers⟩⟩

/-
  The same types in an order that may only be different between
  node types of different categories.
-/
structure Reordered
    (items others : List Item) : Prop where
  types :
    (items.filter Item.isType).Perm (others.filter Item.isType)
  order :
    ∀ category,
      ((fittingStructs items).filter fun d =>
          categoryIn items d.name = category) =
        (fittingStructs others).filter fun d =>
          categoryIn others d.name = category

instance (items others : List Item) :
    Decidable (Reordered items others) :=
  decidable_of_iff
    ((items.filter Item.isType).Perm (others.filter Item.isType) ∧
      ∀ category ∈ Category.order,
        ((fittingStructs items).filter fun d =>
            categoryIn items d.name = category) =
          (fittingStructs others).filter fun d =>
            categoryIn others d.name = category)
    ⟨fun h => ⟨h.1, fun category => h.2 category (by
        cases category <;> decide)⟩,
      fun h => ⟨h.types, fun category _ => h.order category⟩⟩

/- Schemas with the same sum and the same nodes in a category. -/
structure Schema.SameOrder
    (schema other : Schema) : Prop where
  sums : ∀ category, schema.sum? category = other.sum? category
  nodes :
    ∀ category, schema.nodesIn category = other.nodesIn category

------------------------------------------------------------
-- Units
------------------------------------------------------------

namespace Schema.SameOrder

variable {schema other : Schema}

theorem mem_nodes_iff
    (h : schema.SameOrder other)
    {node : NodeSchema} :
    node ∈ schema.nodes ↔ node ∈ other.nodes := by
  have hIn (schema : Schema) :
      node ∈ schema.nodes ↔ node ∈ schema.nodesIn node.category := by
    rw [nodesIn, List.mem_filter, decide_eq_true rfl]
    exact (and_iff_left rfl).symm
  rw [hIn, hIn, h.nodes]

theorem isEmpty_eq
    (h : schema.SameOrder other) :
    schema.isEmpty = other.isEmpty := by
  rw [isEmpty, isEmpty, Bool.eq_iff_iff, List.isEmpty_iff,
    List.isEmpty_iff, List.eq_nil_iff_forall_not_mem,
    List.eq_nil_iff_forall_not_mem]
  simp only [h.mem_nodes_iff]

theorem contains_elements
    (h : schema.SameOrder other)
    (elem : ElemType) :
    (DecoderUnit.elements schema).contains elem =
      (DecoderUnit.elements other).contains elem := by
  rw [Bool.eq_iff_iff, List.contains_iff_mem, List.contains_iff_mem]
  simp only [DecoderUnit.elements, List.mem_filterMap,
    List.mem_flatten, List.mem_map, h.mem_nodes_iff]

/- A unit depends on the order within categories alone. -/
theorem ofSchema_eq
    (h : schema.SameOrder other) :
    DecoderUnit.ofSchema schema = DecoderUnit.ofSchema other := by
  have hTypes :
      DecoderUnit.typesIn schema = DecoderUnit.typesIn other := by
    funext category
    rw [DecoderUnit.typesIn, DecoderUnit.typesIn, h.sums, h.nodes]
  have hMethods :
      DecoderUnit.methodsIn schema = DecoderUnit.methodsIn other := by
    funext category
    rw [DecoderUnit.methodsIn, DecoderUnit.methodsIn, h.sums, h.nodes,
      hTypes]
    simp only [h.contains_elements]
  have hSections :
      DecoderUnit.sectionOf? schema = DecoderUnit.sectionOf? other := by
    funext category
    rw [DecoderUnit.sectionOf?, DecoderUnit.sectionOf?, hTypes,
      hMethods]
  rw [DecoderUnit.ofSchema, DecoderUnit.ofSchema, hSections, hTypes]
  simp only [h.contains_elements]

end Schema.SameOrder

------------------------------------------------------------
-- Sums
------------------------------------------------------------

/- Where no category has two sums, all sums are collected. -/
theorem collectSums_fst
    {found : List SumType}
    {decls : List EnumDecl}
    (h :
      ((found ++ decls.filterMap fun d => (sumOf d).1).map
        SumType.category).Nodup) :
    (collectSums found decls).1 =
      found ++ decls.filterMap fun d => (sumOf d).1 := by
  induction decls generalizing found with
  | nil => exact (List.append_nil found).symm
  | cons decl decls ih =>
      rw [collectSums]
      split
      · rename_i hSum
        rw [List.filterMap_cons_none (by rw [hSum])] at h ⊢
        exact ih h
      · rename_i sum _ hSum
        rw [List.filterMap_cons_some (by rw [hSum])] at h ⊢
        rw [List.append_cons] at h
        have hFree :
            ¬ (found.any fun s =>
              s.category = sum.category) = true := by
          rw [List.any_eq_true]
          rintro ⟨s, hMem, hSame⟩
          have hFirst := h.sublist
            (((found ++ [sum]).sublist_append_left _).map
              SumType.category)
          rw [List.map_append, List.nodup_append] at hFirst
          exact hFirst.2.2 _ (List.mem_map_of_mem hMem) _
            List.mem_cons_self (of_decide_eq_true hSame)
        rw [if_neg hFree]
        exact (ih h).trans (List.append_cons _ _ _).symm

/- A sum without the variants that carry no declared node type. -/
def SumType.narrowed
    (declared : String → Bool)
    (sum : SumType) : SumType :=
  { sum with
    variants := (retainVariants declared sum [] sum.variants).1 }

section

variable {declared : String → Bool} {sum : SumType}

/- Members that no variant carries make no difference to variants. -/
theorem retainVariants_apart
    {members : List Member}
    {variants : List Variant}
    (own : List Member)
    (hApart :
      ∀ v ∈ variants, declared v.node = true →
        v.node ∉ members.map Member.node) :
    retainVariants declared sum (members ++ own) variants =
      ((retainVariants declared sum own variants).1,
        members ++ (retainVariants declared sum own variants).2.1,
        (retainVariants declared sum own variants).2.2) := by
  induction variants generalizing own with
  | nil => rfl
  | cons v variants ih =>
      rw [List.forall_mem_cons] at hApart
      have hRest (own : List Member) := ih own hApart.2
      unfold retainVariants
      dsimp only
      split
      · rw [hRest]
      · rename_i hDeclared
        have hFree :
            (members.any fun m => m.node = v.node) = false := by
          rw [List.any_eq_false]
          intro m hMem hSame
          apply hApart.1 (by simpa using hDeclared)
          rw [← of_decide_eq_true hSame]
          exact List.mem_map_of_mem hMem
        rw [List.any_append, hFree, Bool.false_or]
        split
        · rw [hRest]
        · rw [List.append_assoc, hRest]

/- A sum keeps a variant for each declared node that it carries. -/
theorem carries_retainVariants
    {members : List Member}
    {variants : List Variant}
    {name : String} :
    (∃ v ∈ (retainVariants declared sum members variants).1,
        v.node = name) ↔
      declared name = true ∧ name ∉ members.map Member.node ∧
        ∃ v ∈ variants, v.node = name := by
  induction variants generalizing members with
  | nil => simp [retainVariants]
  | cons v variants ih =>
      unfold retainVariants
      dsimp only
      split
      · rename_i hDeclared
        rw [ih]
        have hNode : declared name = true → v.node ≠ name := by
          rintro hName rfl
          simp [hName] at hDeclared
        simp +contextual [hNode]
      · rename_i hDeclared
        split
        · rename_i hTaken
          rw [ih]
          have hNode :
              name ∉ members.map Member.node → v.node ≠ name := by
            rintro hName rfl
            rcases List.any_eq_true.mp hTaken with ⟨m, hMem, hSame⟩
            rw [decide_eq_true_eq] at hSame
            exact hName (List.mem_map.mpr ⟨m, hMem, hSame⟩)
          simp +contextual [hNode]
        · rename_i hFree
          have hOwn : v.node ∉ members.map Member.node := by
            intro hTaken
            rcases List.mem_map.mp hTaken with ⟨m, hMem, hSame⟩
            exact hFree (List.any_eq_true.mpr
              ⟨m, hMem, decide_eq_true hSame⟩)
          simp only [List.exists_mem_cons_iff, ih, List.map_append,
            List.mem_append, List.map_singleton, List.mem_singleton]
          by_cases hSame : v.node = name
          · rw [hSame] at hOwn hDeclared
            have hName : declared name = true := by
              simpa using hDeclared
            exact iff_of_true (.inl hSame) ⟨hName, hOwn, .inl hSame⟩
          · simp only [hSame, false_or, not_or, Ne.symm hSame,
              not_false_eq_true, and_true]

/- A narrowed sum carries what is declared of what it carried. -/
theorem carries_narrowed
    (name : String) :
    (sum.narrowed declared).carries name = true ↔
      declared name = true ∧ sum.carries name = true := by
  simp only [SumType.carries, List.any_eq_true, decide_eq_true_eq]
  rw [SumType.narrowed]
  simp [carries_retainVariants]

theorem mem_members_narrowed
    {name : String} :
    name ∈ (sum.narrowed declared).members.map Member.node ↔
      declared name = true ∧ sum.carries name = true := by
  rw [← carries_narrowed, SumType.members, List.map_map,
    SumType.carries, List.any_eq_true, List.mem_map]
  simp

/- What comes of a sum next to members that it does not carry. -/
theorem retainVariants_narrowed
    {members : List Member}
    (hApart :
      ∀ name, declared name = true → sum.carries name = true →
        name ∉ members.map Member.node) :
    (retainVariants declared sum members sum.variants).1 =
        (sum.narrowed declared).variants ∧
      (retainVariants declared sum members sum.variants).2.1 =
        members ++ (sum.narrowed declared).members := by
  have hOwn :
      retainVariants declared sum (members ++ []) sum.variants = _ :=
    retainVariants_apart [] fun v hMem hDeclared =>
      hApart v.node hDeclared
        (List.any_eq_true.mpr ⟨v, hMem, decide_eq_true rfl⟩)
  have hAfter := (retainVariants_spec hOwn).2.2.1
  rw [List.append_nil] at hOwn hAfter
  rw [hOwn]
  exact ⟨rfl, hAfter⟩

/- Sums that carry no node type together are narrowed alone. -/
theorem retainAll_apart
    {sums : List SumType}
    (hPair :
      sums.Pairwise fun sum other =>
        ∀ name, declared name = true → sum.carries name = true →
          ¬ other.carries name = true)
    (members : List Member)
    (hApart :
      ∀ sum ∈ sums, ∀ name, declared name = true →
        sum.carries name = true → name ∉ members.map Member.node) :
    (retainAll declared members sums).1 =
        sums.map (SumType.narrowed declared) ∧
      (retainAll declared members sums).2.1 =
        members ++ sums.flatMap fun sum =>
          (sum.narrowed declared).members := by
  induction sums generalizing members with
  | nil => exact ⟨rfl, (List.append_nil members).symm⟩
  | cons sum sums ih =>
      rw [List.pairwise_cons] at hPair
      rw [List.forall_mem_cons] at hApart
      rcases retainVariants_narrowed hApart.1 with
        ⟨hVariants, hMembers⟩
      have hRest := ih hPair.2
        (members ++ (sum.narrowed declared).members) (by
          intro other hOther name hDeclared hCarries
          rw [List.map_append, List.mem_append, mem_members_narrowed]
          rintro (hBefore | hSum)
          · exact hApart.2 other hOther name hDeclared hCarries hBefore
          · exact hPair.1 other hOther name hSum.1 hSum.2 hCarries)
      rw [retainAll, List.map_cons, List.flatMap_cons,
        ← List.append_assoc, ← hRest.1, ← hRest.2, ← hMembers]
      dsimp only
      rw [hVariants]
      exact ⟨rfl, rfl⟩

end

------------------------------------------------------------
-- Members
------------------------------------------------------------

/- Where keys are different, the order says not what is found. -/
theorem find?_key_perm
    {α κ : Type}
    [DecidableEq κ]
    {key : α → κ}
    {as bs : List α}
    (hNodup : (as.map key).Nodup)
    (hPerm : as.Perm bs)
    (k : κ) :
    (as.find? fun a => key a = k) = bs.find? fun b => key b = k := by
  have hSome
      {cs : List α}
      (hKeys : (cs.map key).Nodup)
      {c : α} :
      (cs.find? fun c => key c = k) = some c ↔ c ∈ cs ∧ key c = k := by
    constructor
    · intro h
      have hKey := List.find?_some h
      exact ⟨List.mem_of_find?_eq_some h, of_decide_eq_true hKey⟩
    · rintro ⟨hMem, rfl⟩
      exact find?_key_of_mem hKeys hMem
  have hOther := ((hPerm.map key).nodup_iff).mp hNodup
  ext a
  rw [hSome hNodup, hSome hOther, hPerm.mem_iff]

/- A sum has members for the node types that it carries. -/
theorem find?_members
    (sum : SumType)
    (name : String) :
    (sum.members.find? fun m => m.node = name).map Member.category =
      if sum.carries name then some sum.category else none := by
  rw [SumType.members, SumType.carries]
  induction sum.variants with
  | nil => rfl
  | cons v variants ih =>
      by_cases hNode : v.node = name
      · rw [List.map_cons, List.find?_cons_of_pos (by simpa),
          List.any_cons, decide_eq_true hNode, Bool.true_or]
        rfl
      · rw [List.map_cons, List.find?_cons_of_neg (by simpa),
          List.any_cons, decide_eq_false hNode, Bool.false_or]
        exact ih

/- A member has the category of the first sum that carries it. -/
theorem find?_members_narrowed
    {declared : String → Bool}
    {name : String}
    (hDeclared : declared name = true)
    (sums : List SumType) :
    ((sums.flatMap fun sum =>
        (sum.narrowed declared).members).find? fun m =>
          m.node = name).map Member.category =
      (sums.find? fun sum => sum.carries name).map
        SumType.category := by
  induction sums with
  | nil => rfl
  | cons sum sums ih =>
      have hSum := find?_members (sum.narrowed declared) name
      have hCarries :
          (sum.narrowed declared).carries name = sum.carries name := by
        rw [Bool.eq_iff_iff, carries_narrowed]
        exact and_iff_right hDeclared
      rw [hCarries] at hSum
      rw [List.flatMap_cons, List.find?_append, List.find?_cons]
      cases hFirst : sum.carries name with
      | true =>
          rw [hFirst, if_pos rfl, Option.map_eq_some_iff] at hSum
          rcases hSum with ⟨m, hFound, hCategory⟩
          rw [hFound]
          exact congrArg some hCategory
      | false =>
          rw [hFirst, if_neg Bool.false_ne_true,
            Option.map_eq_none_iff] at hSum
          rw [hSum]
          exact ih

------------------------------------------------------------
-- Schemas
------------------------------------------------------------

/- Whether a name is that of a node type among items. -/
def declaredIn
    (items : List Item)
    (name : String) : Bool :=
  (fittingStructs items).any fun d => d.name = name

/- The members that the sums among items make. -/
def membersIn
    (items : List Item) : List Member :=
  (sumsOf items).flatMap fun sum =>
    (sum.narrowed (declaredIn items)).members

/- The sums among items without what they cannot keep. -/
def narrowedIn
    (items : List Item) : List SumType :=
  (sumsOf items).map (SumType.narrowed (declaredIn items))

namespace Separated

variable {items : List Item}

theorem nodeDecls_fst
    (h : Separated items) :
    (nodeDecls items).1 = fittingStructs items :=
  collectStructs_fst h.names

/- No two of the sums carry the same node type. -/
theorem pairwise
    (h : Separated items) :
    (sumsOf items).Pairwise fun sum other =>
      ∀ name, declaredIn items name = true →
        sum.carries name = true → ¬ other.carries name = true := by
  have hDifferent := List.pairwise_map.mp h.categories
  refine hDifferent.imp_of_mem ?_
  intro sum other hSum hOther hCategory name hDeclared hCarries hBoth
  rcases List.any_eq_true.mp hDeclared with ⟨d, hMem, hName⟩
  rw [decide_eq_true_eq] at hName
  rw [← hName] at hCarries hBoth
  exact hCategory (congrArg SumType.category
    (h.carriers d (List.mem_filter.mp hMem).1 sum hSum other hOther
      hCarries hBoth))

/- What comes of the sums among items. -/
theorem retainedSums_eq
    (h : Separated items) :
    (retainedSums items).1 = narrowedIn items ∧
      (retainedSums items).2.1 = membersIn items := by
  have hFound : (foundSums items).1 = sumsOf items :=
    collectSums_fst (by simpa [sumsOf] using h.categories)
  rw [retainedSums, hFound, h.nodeDecls_fst]
  exact retainAll_apart h.pairwise [] fun _ _ _ _ _ => List.not_mem_nil

/- The schema of items. -/
theorem schema_eq
    (h : Separated items) :
    (extractItems items).schema =
      assembled (fittingStructs items) (narrowedIn items)
        (membersIn items) := by
  rcases h.retainedSums_eq with ⟨hSums, hMembers⟩
  have hSchema :
      (extractItems items).schema =
        ⟨(nodeDecls items).1.map fun d => (itemNode items d).1,
          (retainedSums items).1⟩ := by
    rw [← extractItems_nodes]
    rfl
  rw [hSchema, assembled, hSums, h.nodeDecls_fst]
  simp only [itemNode, hSums, hMembers, h.nodeDecls_fst]

/- No node type is a member twice. -/
theorem nodup_membersIn
    (h : Separated items) :
    ((membersIn items).map Member.node).Nodup := by
  rw [← h.retainedSums_eq.2]
  exact (retainAll_spec rfl).2.2.2 List.nodup_nil

/- The nodes of a category are the structures that have it. -/
theorem nodesIn_eq
    (h : Separated items)
    (category : Category) :
    (extractItems items).schema.nodesIn category =
      ((fittingStructs items).filter fun d =>
          categoryIn items d.name = category).map fun d =>
        (nodeOf (knownName (fittingStructs items) (narrowedIn items))
          (membersIn items) d).1 := by
  rw [h.schema_eq, assembled, Schema.nodesIn, List.filter_map]
  congr 1
  apply List.filter_congr
  intro d hMem
  have hDeclared : declaredIn items d.name = true :=
    List.any_eq_true.mpr ⟨d, hMem, decide_eq_true rfl⟩
  have hCategory :
      (nodeOf (knownName (fittingStructs items) (narrowedIn items))
        (membersIn items) d).1.category = categoryIn items d.name :=
    congrArg (fun found => found.getD .other)
      (find?_members_narrowed hDeclared (sumsOf items))
  rw [Function.comp_apply, hCategory]

end Separated

/- Items that declare no type do not count. -/
theorem structsOf_filter
    (items : List Item) :
    structsOf (items.filter Item.isType) = structsOf items := by
  rw [structsOf, List.filterMap_filter, structsOf]
  apply List.filterMap_congr
  intro item _
  cases item <;> rfl

theorem enumsOf_filter
    (items : List Item) :
    enumsOf (items.filter Item.isType) = enumsOf items := by
  rw [enumsOf, List.filterMap_filter, enumsOf]
  apply List.filterMap_congr
  intro item _
  cases item <;> rfl

theorem extractItems_filter
    (items : List Item) :
    extractItems (items.filter Item.isType) = extractItems items := by
  rw [extractItems, enumsOf_filter, structsOf_filter]
  rfl

namespace Reordered

variable {items others : List Item}

theorem structs_perm
    (h : Reordered items others) :
    (structsOf items).Perm (structsOf others) := by
  rw [← structsOf_filter items, ← structsOf_filter others]
  exact h.types.filterMap _

theorem enums_perm
    (h : Reordered items others) :
    (enumsOf items).Perm (enumsOf others) := by
  rw [← enumsOf_filter items, ← enumsOf_filter others]
  exact h.types.filterMap _

theorem sums_perm
    (h : Reordered items others) :
    (sumsOf items).Perm (sumsOf others) :=
  h.enums_perm.filterMap _

theorem separated
    (h : Reordered items others)
    (hItems : Separated items) :
    Separated others where
  names := (h.structs_perm.map _).nodup_iff.mp hItems.names
  categories := (h.sums_perm.map _).nodup_iff.mp hItems.categories
  carriers := by
    intro d hMem sum hSum other hOther
    exact hItems.carriers d (h.structs_perm.mem_iff.mpr hMem) sum
      (h.sums_perm.mem_iff.mpr hSum) other
      (h.sums_perm.mem_iff.mpr hOther)

/- The same node types are declared. -/
theorem declaredIn_eq
    (h : Reordered items others) :
    declaredIn items = declaredIn others := by
  funext name
  exact (h.structs_perm.filter _).any_eq

theorem narrowed_perm
    (h : Reordered items others) :
    (narrowedIn items).Perm (narrowedIn others) := by
  rw [narrowedIn, narrowedIn, h.declaredIn_eq]
  exact h.sums_perm.map _

theorem members_perm
    (h : Reordered items others) :
    (membersIn items).Perm (membersIn others) := by
  rw [membersIn, membersIn, h.declaredIn_eq]
  exact h.sums_perm.flatMap_right _

/- A structure is the same node type among both. -/
theorem nodeOf_eq
    (h : Reordered items others)
    (hItems : Separated items)
    (d : StructDecl) :
    nodeOf (knownName (fittingStructs items) (narrowedIn items))
        (membersIn items) d =
      nodeOf (knownName (fittingStructs others) (narrowedIn others))
        (membersIn others) d := by
  have hKnown :
      knownName (fittingStructs items) (narrowedIn items) =
        knownName (fittingStructs others) (narrowedIn others) := by
    funext name
    exact congrArg₂ (· || ·) (h.structs_perm.filter _).any_eq
      h.narrowed_perm.any_eq
  have hMember :=
    find?_key_perm hItems.nodup_membersIn h.members_perm d.name
  rw [nodeOf, nodeOf, hKnown, hMember]

/- The schemas of both have the same order within categories. -/
theorem sameOrder
    (h : Reordered items others)
    (hItems : Separated items) :
    (extractItems items).schema.SameOrder
      (extractItems others).schema := by
  have hOthers := h.separated hItems
  constructor
  · intro category
    have hCategories :
        (narrowedIn items).map SumType.category =
          (sumsOf items).map SumType.category :=
      List.map_map
    rw [hItems.schema_eq, hOthers.schema_eq]
    exact find?_key_perm (hCategories ▸ hItems.categories)
      h.narrowed_perm category
  · intro category
    rw [hItems.nodesIn_eq, hOthers.nodesIn_eq, h.order]
    simp only [h.nodeOf_eq hItems]

end Reordered

------------------------------------------------------------
-- Sources
------------------------------------------------------------

/-
  Sources with the same types give the same unit, or none, if
  their orders agree on the node types of every category.  Items
  that declare no type make no difference at all.
-/
theorem unit_of_reordered_items
    (source other : String)
    (items others : List Item)
    (hItems : items? source = some items)
    (hOthers : items? other = some others) :
    (Separated items → Reordered items others →
      ((extract source).map fun extraction =>
          (DecoderUnit.ofSchema extraction.schema).text) =
        (extract other).map fun extraction =>
          (DecoderUnit.ofSchema extraction.schema).text) ∧
      (items.filter Item.isType = others.filter Item.isType →
        extract source = extract other) := by
  unfold extract
  rw [hItems, hOthers]
  constructor
  · intro hSeparated hReordered
    have hSame := hReordered.sameOrder hSeparated
    dsimp only
    rw [hSame.isEmpty_eq]
    split
    · rfl
    · rw [Except.map, Except.map, hSame.ofSchema_eq]
  · intro hTypes
    dsimp only
    rw [← extractItems_filter items, hTypes, extractItems_filter]

/- A sum with its node type, and one that stands alone. -/
def sortedSource : String :=
  "#[serde(tag = \"expression_name\")]\nenum Expr "
    ++ "\x7b Not(Not) \x7d\nstruct Not;\nstruct Item;\n"

/- The same types in another order. -/
def mixedSource : String :=
  "struct Item;\nstruct Not;\n"
    ++ "#[serde(tag = \"expression_name\")]\nenum Expr "
    ++ "\x7b Not(Not) \x7d\n"

/- Both give the same unit, and so does the first with an item more. -/
theorem mixedSource_unit :
    ∃ items others longer,
      items? sortedSource = some items ∧
        items? mixedSource = some others ∧
        items? (sortedSource ++ "use fmt;") =
          some longer ∧
        Separated items ∧ Reordered items others ∧
        items.filter Item.isType = longer.filter Item.isType ∧
        ((extract sortedSource).map fun extraction =>
            (DecoderUnit.ofSchema extraction.schema).text) =
          ((extract mixedSource).map fun extraction =>
            (DecoderUnit.ofSchema extraction.schema).text) ∧
        extract sortedSource =
          extract (sortedSource ++ "use fmt;") := by
  have hOrder :
      ((items? sortedSource).bind fun items =>
        (items? mixedSource).bind fun others =>
          (items? (sortedSource ++ "use fmt;")).map
            fun longer =>
              decide (Separated items ∧ Reordered items others ∧
                items.filter Item.isType =
                  longer.filter Item.isType)) = some true := by
    decide +kernel
  rcases Option.bind_eq_some_iff.mp hOrder with
    ⟨items, hItems, hOrder⟩
  rcases Option.bind_eq_some_iff.mp hOrder with
    ⟨others, hOthers, hOrder⟩
  rcases Option.map_eq_some_iff.mp hOrder with
    ⟨longer, hLonger, hOrder⟩
  rcases of_decide_eq_true hOrder with
    ⟨hSeparated, hReordered, hTypes⟩
  exact ⟨items, others, longer, hItems, hOthers, hLonger,
    hSeparated, hReordered, hTypes,
    (unit_of_reordered_items sortedSource mixedSource items others
      hItems hOthers).1 hSeparated hReordered,
    (unit_of_reordered_items sortedSource _ items longer
      hItems hLonger).2 hTypes⟩

end TreeWire
