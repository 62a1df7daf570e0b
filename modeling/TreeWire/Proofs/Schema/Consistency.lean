import Mathlib.Data.List.Count
import TreeWire.Proofs.Schema.Membership

/-
  Extracted schemas are closed and consistent.

  What a field or a variant of an extracted schema refers to is
  declared there.  The variants of the sums and the node types of
  their categories belong to each other one to one.  Every name
  in documents can be written without escapes.

  Key definitions include:
    * `Schema.declares`
    * `Schema.Consistent`

  Main statements:
    * `exists_assembled`
    * `Assembled.consistent`
    * `extracted_schema_consistent`
-/

namespace TreeWire

open Declaration

------------------------------------------------------------
-- Consistency
------------------------------------------------------------

/- Whether a name is that of a node type or of a sum type. -/
def Schema.declares
    (schema : Schema)
    (name : String) : Bool :=
  (schema.node? name).isSome || schema.isSum name

/- The variants of all sum types. -/
def Schema.variants
    (schema : Schema) : List Variant :=
  schema.sums.flatMap SumType.variants

/- The discriminant of the nodes of a category, if they have one. -/
def Category.tagFields
    (category : Category) : List FieldDescriptor :=
  (category.tag?.map FieldDescriptor.ofTag).toList

/-
  A schema is closed, and its sum types and its node types fit
  together.
-/
structure Schema.Consistent
    (schema : Schema) : Prop where
  names : (schema.nodes.map NodeSchema.name).Nodup
  categories : (schema.sums.map SumType.category).Nodup
  tags : ∀ sum ∈ schema.sums, sum.category.tag? = some sum.tag
  carried :
    ∀ sum ∈ schema.sums, ∀ v ∈ sum.variants,
      ∃ node,
        schema.node? v.node = some node ∧
          node.category = sum.category ∧
          node.variantName = some v.wireName
  carriers :
    ∀ node ∈ schema.nodes,
      schema.variants.countP (fun v => v.node = node.name) =
        if node.category = .other then 0 else 1
  others :
    ∀ node ∈ schema.nodes,
      node.category = .other → node.variantName = none
  discriminants :
    ∀ node ∈ schema.nodes,
      ∃ others,
        node.fields = node.category.tagFields ++ others ∧
          ∀ f ∈ others,
            f.discriminant = false ∧
              f.wireName ≠ "expression_name" ∧
              f.wireName ≠ "statement_name"
  targets :
    ∀ node ∈ schema.nodes, ∀ f ∈ node.fields,
      ∀ name, f.kind.target? = some name →
        schema.declares name = true
  boxes :
    ∀ node ∈ schema.nodes, ∀ f ∈ node.fields,
      f.boxed = true → ∃ name, f.kind = .nested name
  sequences :
    ∀ node ∈ schema.nodes, ∀ f ∈ node.fields,
      ∀ elem, f.kind = .nestedArray elem →
        f.presence = .defaulted
  fieldNames :
    ∀ node ∈ schema.nodes, ∀ f ∈ node.fields, PlainName f.wireName
  variantNames :
    ∀ sum ∈ schema.sums, ∀ v ∈ sum.variants, PlainName v.wireName

------------------------------------------------------------
-- Node Types
------------------------------------------------------------

/- The fields that the declaration of a structure gives. -/
def declaredFields
    (known : String → Bool)
    (decl : StructDecl) : List FieldDescriptor :=
  (successes ((namedFieldsOf decl.fields).map fun (name, f) =>
    fieldOf known name f)).filterMap id

theorem wellFormed_of_mem_declaredFields
    {known : String → Bool}
    {decl : StructDecl}
    {f : FieldDescriptor}
    (h : f ∈ declaredFields known decl) :
    f.WellFormed known := by
  rw [declaredFields, List.mem_filterMap] at h
  rcases h with ⟨result, hMem, hSome⟩
  cases hSome
  rw [mem_successes_iff, List.mem_map] at hMem
  rcases hMem with ⟨⟨name, decl⟩, _, hField⟩
  exact wellFormed_of_fieldOf hField

section

variable (known : String → Bool) (members : List Member)
variable (decl : StructDecl)

/- A node has its discriminant, and the fields declared for it. -/
theorem nodeOf_fields :
    (nodeOf known members decl).1.fields =
      (nodeOf known members decl).1.category.tagFields ++
        declaredFields known decl := by
  unfold nodeOf Category.tagFields declaredFields
  dsimp only
  rw [List.map_map]
  split
  · rename_i tag hTag
    rw [hTag]
    rfl
  · rename_i hTag
    rw [hTag]
    rfl

variable {known members decl}

theorem nodeOf_of_member
    {member : Member}
    (h : members.find? (fun m => m.node = decl.name) = some member) :
    (nodeOf known members decl).1.category = member.category ∧
      (nodeOf known members decl).1.variantName =
        some member.wireName := by
  unfold nodeOf
  rw [h]
  exact ⟨rfl, rfl⟩

theorem nodeOf_of_no_member
    (h : members.find? (fun m => m.node = decl.name) = none) :
    (nodeOf known members decl).1.category = .other ∧
      (nodeOf known members decl).1.variantName = none := by
  unfold nodeOf
  rw [h]
  exact ⟨rfl, rfl⟩

end

theorem isWireName_of_tag?
    {category : Category}
    {tag : String}
    (h : category.tag? = some tag) :
    WireOptions.isWireName tag = true := by
  cases category <;> cases h <;> decide

------------------------------------------------------------
-- Assembling
------------------------------------------------------------

/-
  What the passes before the last one leave: structures with
  different names, and sum types the variants of which make the
  members, each for another one of the structures.
-/
structure Assembled
    (structs : List StructDecl)
    (sums : List SumType)
    (members : List Member) : Prop where
  names : (structs.map StructDecl.name).Nodup
  wellFormed : SumsWellFormed sums
  declared :
    ∀ sum ∈ sums, ∀ v ∈ sum.variants,
      ∃ d ∈ structs, d.name = v.node
  made : members = sums.flatMap SumType.members
  once : (members.map Member.node).Nodup

/- Whether a name is that of a structure or of a sum type. -/
def knownName
    (structs : List StructDecl)
    (sums : List SumType)
    (name : String) : Bool :=
  (structs.any fun d => d.name = name)
    || sums.any fun s => s.name = name

/- The schema that the last pass makes. -/
def assembled
    (structs : List StructDecl)
    (sums : List SumType)
    (members : List Member) : Schema :=
  ⟨structs.map fun d =>
      (nodeOf (knownName structs sums) members d).1,
    sums⟩

/- The passes over items. -/
theorem exists_assembled
    (items : List Item) :
    ∃ structs sums members,
      Assembled structs sums members ∧
        (extractItems items).schema =
          assembled structs sums members := by
  rcases hSums : collectSums [] (enumsOf items) with
    ⟨found, sumWarnings⟩
  rcases hStructs : collectStructs (structsOf items) with
    ⟨structs, structWarnings⟩
  rcases hRetain :
    retainAll (fun name => structs.any fun d => d.name = name) []
      found with
    ⟨sums, members, variantWarnings⟩
  have hFound : SumsWellFormed found := by
    have hCollected :=
      collectSums_wellFormed (enumsOf items)
        (⟨List.nodup_nil, nofun⟩ : SumsWellFormed [])
    rwa [hSums] at hCollected
  have hNames := nodup_collectStructs (structsOf items)
  rw [hStructs] at hNames
  rcases retainAll_spec hRetain with
    ⟨hNarrows, hDeclared, hMembers, hNodup⟩
  refine ⟨structs, sums, members,
    ⟨hNames, hFound.narrow hNarrows, ?_, ?_, hNodup List.nodup_nil⟩,
    ?_⟩
  · intro sum hSum v hMem
    simpa using hDeclared sum hSum v hMem
  · simpa using hMembers
  · unfold extractItems
    rw [hSums, hStructs]
    dsimp only
    rw [hRetain]
    dsimp only [assembled]
    rw [List.map_map]
    rfl

namespace Assembled

variable {structs : List StructDecl} {sums : List SumType}
variable {members : List Member}

/- Node types are named as their structures. -/
theorem nodup_names
    (h : Assembled structs sums members) :
    ((assembled structs sums members).nodes.map
      NodeSchema.name).Nodup := by
  rw [assembled, List.map_map]
  exact h.names

/- A structure is found by its name. -/
theorem node?_eq
    (h : Assembled structs sums members)
    {d : StructDecl}
    (hMem : d ∈ structs) :
    (assembled structs sums members).node? d.name =
      some (nodeOf (knownName structs sums) members d).1 :=
  find?_key_of_mem h.nodup_names (List.mem_map_of_mem hMem)

/- A name that is known is declared by the schema. -/
theorem declares_of_knownName
    (h : Assembled structs sums members)
    {name : String}
    (hKnown : knownName structs sums name = true) :
    (assembled structs sums members).declares name = true := by
  rw [knownName, Bool.or_eq_true] at hKnown
  rw [Schema.declares, Bool.or_eq_true]
  rcases hKnown with hStruct | hSum
  · left
    rw [List.any_eq_true] at hStruct
    rcases hStruct with ⟨d, hMem, hName⟩
    rw [decide_eq_true_eq] at hName
    subst hName
    rw [h.node?_eq hMem]
    rfl
  · exact .inr hSum

/- The member that a variant makes is found by its node type. -/
theorem find?_member
    (h : Assembled structs sums members)
    {sum : SumType}
    {v : Variant}
    (hSum : sum ∈ sums)
    (hVariant : v ∈ sum.variants) :
    members.find? (fun m => m.node = v.node) =
      some ⟨v.node, sum.category, v.wireName⟩ := by
  have hMem : ⟨v.node, sum.category, v.wireName⟩ ∈ members := by
    rw [h.made, List.mem_flatMap]
    exact ⟨sum, hSum, List.mem_map.mpr ⟨v, hVariant, rfl⟩⟩
  exact find?_key_of_mem h.once hMem

/- A member belongs to a category with a tag. -/
theorem category_ne_other
    (h : Assembled structs sums members)
    {member : Member}
    (hMem : member ∈ members) :
    member.category ≠ .other := by
  rw [h.made, List.mem_flatMap] at hMem
  rcases hMem with ⟨sum, hSum, hMember⟩
  rcases List.mem_map.mp hMember with ⟨v, _, rfl⟩
  have hTag := (h.wellFormed.each sum hSum).tagged
  intro hOther
  dsimp only at hOther
  rw [hOther] at hTag
  cases hTag

/- So many variants carry a node type as it is a member often. -/
theorem countP_variants
    (h : Assembled structs sums members)
    (name : String) :
    (assembled structs sums members).variants.countP
        (fun v => v.node = name) =
      (members.map Member.node).count name := by
  have hNodes :
      members.map Member.node =
        (assembled structs sums members).variants.map
          Variant.node := by
    rw [h.made, Schema.variants, assembled, List.map_flatMap,
      List.map_flatMap]
    simp only [SumType.members, List.map_map]
    rfl
  rw [hNodes, List.count, List.countP_map]
  rfl

/- A node type is a member, or belongs to no sum. -/
theorem carriers
    (h : Assembled structs sums members)
    {node : NodeSchema}
    (hNode : node ∈ (assembled structs sums members).nodes) :
    (assembled structs sums members).variants.countP
        (fun v => v.node = node.name) =
      (if node.category = .other then 0 else 1) ∧
    (node.category = .other → node.variantName = none) := by
  rcases List.mem_map.mp hNode with ⟨d, hStruct, rfl⟩
  rw [h.countP_variants]
  cases hFound : members.find? fun m => m.node = d.name with
  | some member =>
      have hMem := List.mem_of_find?_eq_some hFound
      have hName : member.node = d.name := by
        simpa using List.find?_some hFound
      have hCount : (members.map Member.node).count d.name = 1 :=
        List.count_eq_one_of_mem h.once
          (List.mem_map.mpr ⟨member, hMem, hName⟩)
      have hSum := h.category_ne_other hMem
      rw [← (nodeOf_of_member hFound).1] at hSum
      rw [if_neg hSum]
      exact ⟨hCount, fun hOther => absurd hOther hSum⟩
  | none =>
      have hCount : (members.map Member.node).count d.name = 0 := by
        apply List.count_eq_zero_of_not_mem
        intro hMem
        rcases List.mem_map.mp hMem with ⟨member, hMember, hName⟩
        have hNone := List.find?_eq_none.mp hFound member hMember
        simp [hName] at hNone
      rcases nodeOf_of_no_member hFound with ⟨hOther, hVariant⟩
      rw [hOther, if_pos rfl]
      exact ⟨hCount, fun _ => hVariant⟩

/- A variant carries a node type of the category of its sum. -/
theorem carried
    (h : Assembled structs sums members)
    {sum : SumType}
    {v : Variant}
    (hSum : sum ∈ sums)
    (hVariant : v ∈ sum.variants) :
    ∃ node,
      (assembled structs sums members).node? v.node = some node ∧
        node.category = sum.category ∧
        node.variantName = some v.wireName := by
  rcases h.declared sum hSum v hVariant with ⟨d, hStruct, hName⟩
  have hMember := h.find?_member hSum hVariant
  rw [← hName] at hMember ⊢
  exact ⟨_, h.node?_eq hStruct, nodeOf_of_member hMember⟩

/- A field is the discriminant of its node, or a declared one. -/
theorem field_cases
    {node : NodeSchema}
    {f : FieldDescriptor}
    (hNode : node ∈ (assembled structs sums members).nodes)
    (hField : f ∈ node.fields) :
    (∃ tag, node.category.tag? = some tag ∧ f = .ofTag tag) ∨
      f.WellFormed (knownName structs sums) := by
  rcases List.mem_map.mp hNode with ⟨d, _, rfl⟩
  rw [nodeOf_fields, List.mem_append] at hField
  rcases hField with hTag | hDeclared
  · rw [Category.tagFields, Option.mem_toList,
      Option.map_eq_some_iff] at hTag
    rcases hTag with ⟨tag, hTag, rfl⟩
    exact .inl ⟨tag, hTag, rfl⟩
  · exact .inr (wellFormed_of_mem_declaredFields hDeclared)

theorem discriminants
    {node : NodeSchema}
    (hNode : node ∈ (assembled structs sums members).nodes) :
    ∃ others,
      node.fields = node.category.tagFields ++ others ∧
        ∀ f ∈ others,
          f.discriminant = false ∧
            f.wireName ≠ "expression_name" ∧
            f.wireName ≠ "statement_name" := by
  rcases List.mem_map.mp hNode with ⟨d, _, rfl⟩
  refine ⟨_, nodeOf_fields _ _ _, ?_⟩
  intro f hMem
  have hField := wellFormed_of_mem_declaredFields hMem
  have hFree := hField.unreserved
  refine ⟨hField.untagged, ?_, ?_⟩
  · intro hName
    rw [hName] at hFree
    cases hFree
  · intro hName
    rw [hName] at hFree
    cases hFree

/- The schema of what the passes leave is consistent. -/
theorem consistent
    (h : Assembled structs sums members) :
    (assembled structs sums members).Consistent where
  names := h.nodup_names
  categories := h.wellFormed.categories
  tags := fun sum hSum => (h.wellFormed.each sum hSum).tagged
  carried := fun _ hSum _ hVariant => h.carried hSum hVariant
  carriers := fun _ hNode => (h.carriers hNode).1
  others := fun _ hNode => (h.carriers hNode).2
  discriminants := fun _ hNode => discriminants hNode
  targets := by
    intro node hNode f hField name hTarget
    rcases field_cases hNode hField with ⟨tag, _, rfl⟩ | hDeclared
    · cases hTarget
    · exact h.declares_of_knownName (hDeclared.target name hTarget)
  boxes := by
    intro node hNode f hField hBoxed
    rcases field_cases hNode hField with ⟨tag, _, rfl⟩ | hDeclared
    · cases hBoxed
    · exact hDeclared.boxed hBoxed
  sequences := by
    intro node hNode f hField elem hKind
    rcases field_cases hNode hField with ⟨tag, _, rfl⟩ | hDeclared
    · cases hKind
    · exact hDeclared.sequence elem hKind
  fieldNames := by
    intro node hNode f hField
    apply plainName_of_isWireName
    rcases field_cases hNode hField with
      ⟨tag, hTag, rfl⟩ | hDeclared
    · exact isWireName_of_tag? hTag
    · exact hDeclared.named
  variantNames := fun sum hSum v hVariant =>
    plainName_of_isWireName
      ((h.wellFormed.each sum hSum).named v hVariant)

end Assembled

------------------------------------------------------------
-- Extraction
------------------------------------------------------------

/- A name that a schema declares has a category. -/
theorem Schema.categoryOf?_isSome
    {schema : Schema}
    {name : String}
    (h : schema.declares name = true) :
    (schema.categoryOf? name).isSome = true := by
  unfold categoryOf?
  rw [declares, Bool.or_eq_true] at h
  split
  · rfl
  · rename_i hNone
    rw [hNone] at h
    rw [Option.isSome_map, List.find?_isSome]
    simpa [isSum] using h

/-
  Every schema that is extracted from a source is closed and
  consistent.  So every variant of a sum finds the node type that
  it carries, and the target of every nested field has a category.
-/
theorem extracted_schema_consistent
    (source : String)
    (extraction : Extraction)
    (h : extract source = .ok extraction) :
    extraction.schema.Consistent ∧
      (∀ sum ∈ extraction.schema.sums, ∀ v ∈ sum.variants,
        (extraction.schema.node? v.node).isSome = true) ∧
      ∀ node ∈ extraction.schema.nodes, ∀ f ∈ node.fields,
        ∀ name, f.kind = .nested name →
          (extraction.schema.categoryOf? name).isSome = true := by
  have hConsistent : extraction.schema.Consistent := by
    unfold extract at h
    split at h
    · cases h
    · rename_i items _
      dsimp only at h
      split at h
      · cases h
      · cases h
        rcases exists_assembled items with
          ⟨structs, sums, members, hAssembled, hSchema⟩
        rw [hSchema]
        exact hAssembled.consistent
  refine ⟨hConsistent, ?_, ?_⟩
  · intro sum hSum v hVariant
    rcases hConsistent.carried sum hSum v hVariant with
      ⟨node, hNode, _⟩
    rw [hNode]
    rfl
  · intro node hNode f hField name hKind
    apply Schema.categoryOf?_isSome
    apply hConsistent.targets node hNode f hField name
    rw [hKind]
    rfl

/- An enumeration of expressions, and what its variants carry. -/
def negationSource : String :=
  "#[serde(tag = \"expression_name\")]\nenum Expr "
    ++ "\x7b Not(Not), Again(Not), Missing(Other) \x7d\n"
    ++ "struct Not \x7b r#type: Box<Expr>, notes: Vec<Note> \x7d\n"
    ++ "struct Note \x7b text: String \x7d"

/-
  The schema of that source.  Of the variants only the first is
  kept, and its node type is the only expression.
-/
theorem negationSource_consistent :
    ∃ extraction,
      extract negationSource = .ok extraction ∧
        extraction.schema.variants.map Variant.wireName = ["Not"] ∧
        extraction.schema.nodes.map NodeSchema.category =
          [.expression, .other] ∧
        extraction.schema.Consistent := by
  have hSchema :
      (extract negationSource).toOption.map (fun extraction =>
          (extraction.schema.variants.map Variant.wireName,
            extraction.schema.nodes.map NodeSchema.category)) =
        some (["Not"], [.expression, .other]) := by
    decide +kernel
  cases h : extract negationSource with
  | error e =>
      rw [h] at hSchema
      cases hSchema
  | ok extraction =>
      rw [h] at hSchema
      rcases Prod.ext_iff.mp (Option.some.inj hSchema) with
        ⟨hVariants, hNodes⟩
      exact ⟨extraction, rfl, hVariants, hNodes,
        (extracted_schema_consistent negationSource extraction h).1⟩

end TreeWire
