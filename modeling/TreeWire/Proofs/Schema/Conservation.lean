import TreeWire.Proofs.Schema.Consistency
import TreeWire.Proofs.Schema.Passes
import TreeWire.Unit.DecoderUnit

/-
  Extraction loses nothing silently.

  Where the types of a source have different names, and so have
  the fields of a structure and the variants of an enumeration,
  each of these declarations is accounted for: it is kept in the
  schema, or there is exactly one warning that names it.  A field
  that is skipped on purpose has no warning.  The literal that a
  unit builds for a node gives every field of its structure a
  value once.

  Key definitions include:
    * `DistinctNames`
    * `NodeSchema.Accounts`
    * `Extraction.Accounts`

  Main statements:
    * `nodeOf_accounts`
    * `extractItems_accounts`
    * `extraction_loses_nothing`
-/

namespace TreeWire

open Declaration

------------------------------------------------------------
-- Accounts
------------------------------------------------------------

/-
  The types of a source have different names, and so have the
  fields of a structure and the variants of an enumeration.
-/
structure DistinctNames
    (items : List Item) : Prop where
  types :
    ((enumsOf items).map EnumDecl.name ++
      (structsOf items).map StructDecl.name).Nodup
  fields :
    ∀ d ∈ structsOf items,
      ((namedFieldsOf d.fields).map (·.1.text)).Nodup
  variants :
    ∀ d ∈ enumsOf items, (d.variants.map (·.name.text)).Nodup

instance (items : List Item) : Decidable (DistinctNames items) :=
  decidable_of_iff
    (((enumsOf items).map EnumDecl.name ++
        (structsOf items).map StructDecl.name).Nodup ∧
      (∀ d ∈ structsOf items,
        ((namedFieldsOf d.fields).map (·.1.text)).Nodup) ∧
      ∀ d ∈ enumsOf items, (d.variants.map (·.name.text)).Nodup)
    ⟨fun h => ⟨h.1, h.2.1, h.2.2⟩,
      fun h => ⟨h.types, h.fields, h.variants⟩⟩

/-
  A field of a structure is an attribute of its node.  Or it is
  skipped, on purpose and without a warning, or with just one.
-/
def NodeSchema.AccountsField
    (node : NodeSchema)
    (warnings : List Warning)
    (name : String)
    (field : FieldDecl) : Prop :=
  let attributes := node.attributes.map FieldDescriptor.name
  let count := warned warnings node.name (some name)
  name ∈ attributes ∧ name ∉ node.skipped ∧ count = 0 ∨
    name ∉ attributes ∧ name ∈ node.skipped ∧
      (field.IsSkipped ∧ count = 0 ∨ ¬ field.IsSkipped ∧ count = 1)

/- A line that gives a field its value in a literal. -/
def Line.Initialises
    (line : Line)
    (name : String) : Prop :=
  ∃ value pieces, line.pieces = .code (name ++ ": " ++ value) :: pieces

/-
  All fields of a structure are accounted for.  Attributes and
  skipped fields are in declaration order, and the literal for
  the node has one line for each field.
-/
structure NodeSchema.Accounts
    (node : NodeSchema)
    (warnings : List Warning)
    (declared : List (Identifier × FieldDecl)) : Prop where
  attributes :
    (node.attributes.map FieldDescriptor.name).Sublist
      (declared.map (·.1.text))
  skipped : node.skipped.Sublist (declared.map (·.1.text))
  fields :
    ∀ field ∈ declared,
      node.AccountsField warnings field.1.text field.2
  literal :
    ∃ lines names,
      (attrsMethod node).body =
        readLines node
          ++ .plain 2 ("Ok(" ++ node.name ++ " \x7b") :: lines
          ++ [.plain 2 "\x7d)"] ∧
      List.Forall₂ Line.Initialises lines names ∧
      names.Perm (declared.map (·.1.text))

/-
  All declarations among items are accounted for by a schema and
  the warnings on the way to it.
-/
structure Extraction.Accounts
    (extraction : Extraction)
    (items : List Item) : Prop where
  order :
    (extraction.schema.nodes.map NodeSchema.name).Sublist
      ((structsOf items).map StructDecl.name)
  structs :
    ∀ d ∈ structsOf items,
      KeptOrWarned
        (d.name ∈ extraction.schema.nodes.map NodeSchema.name)
        (warned extraction.warnings d.name none)
  fields :
    ∀ d ∈ structsOf items, ∀ node ∈ extraction.schema.nodes,
      node.name = d.name →
        node.Accounts extraction.warnings (namedFieldsOf d.fields)
  literals :
    ∀ node ∈ extraction.schema.nodes,
      attrsMethod node ∈
        (DecoderUnit.ofSchema extraction.schema).methods
  enums :
    ∀ d ∈ enumsOf items,
      d.IsTagged →
        KeptOrWarned
          (d.name ∈ extraction.schema.sums.map SumType.name)
          (warned extraction.warnings d.name none)
  variants :
    ∀ d ∈ enumsOf items, ∀ sum ∈ extraction.schema.sums,
      sum.name = d.name →
        ∀ v ∈ d.variants,
          KeptOrWarned
            (v.name.text ∈ sum.variants.map Variant.name)
            (warned extraction.warnings d.name (some v.name.text))

------------------------------------------------------------
-- Fields
------------------------------------------------------------

/- The fields of a structure with what they stand for. -/
def fieldResults
    (known : String → Bool)
    (fields : List (Identifier × FieldDecl)) :
    List (String × Except Reason (Option FieldDescriptor)) :=
  fields.map fun field =>
    (field.1.text, fieldOf known field.1 field.2)

/- The fields that are found among results. -/
def foundFields
    (results :
      List (String × Except Reason (Option FieldDescriptor))) :
    List FieldDescriptor :=
  (successes (results.map Prod.snd)).filterMap id

section

variable (known : String → Bool)

theorem fst_fieldResults
    (fields : List (Identifier × FieldDecl)) :
    (fieldResults known fields).map Prod.fst =
      fields.map (·.1.text) := by
  rw [fieldResults, List.map_map]
  rfl

/- A field is found among the results, or is left out of them. -/
theorem foundFields_append_leftOut_perm
    (fields : List (Identifier × FieldDecl)) :
    ((foundFields (fieldResults known fields)).map
        FieldDescriptor.name ++
      leftOut (fieldResults known fields)).Perm
        (fields.map (·.1.text)) := by
  induction fields with
  | nil => exact .nil
  | cons field fields ih =>
      rw [fieldResults, List.map_cons]
      cases hField : fieldOf known field.1 field.2 with
      | error reason => exact List.perm_middle.trans (ih.cons _)
      | ok found =>
          cases found with
          | none => exact List.perm_middle.trans (ih.cons _)
          | some f =>
              have hName := (declaresName_of_fieldOf hField).1
              rw [List.map_cons, ← hName]
              exact ih.cons _

/- Fields are found in declaration order, each from its own. -/
theorem foundFields_sublistForall₂
    (fields : List (Identifier × FieldDecl)) :
    List.SublistForall₂
      (fun f field =>
        fieldOf known field.1 field.2 = .ok (some f))
      (foundFields (fieldResults known fields)) fields := by
  induction fields with
  | nil => exact .nil
  | cons field fields ih =>
      rw [fieldResults, List.map_cons]
      cases hField : fieldOf known field.1 field.2 with
      | error reason => exact .cons_right ih
      | ok found =>
          cases found with
          | none => exact .cons_right ih
          | some f => exact .cons hField ih

theorem foundFields_sublist
    (fields : List (Identifier × FieldDecl)) :
    ((foundFields (fieldResults known fields)).map
      FieldDescriptor.name).Sublist (fields.map (·.1.text)) := by
  rcases List.sublistForall₂_iff.mp
    (foundFields_sublistForall₂ known fields) with ⟨kept, hEach, hKept⟩
  have hNames :
      (foundFields (fieldResults known fields)).map
          FieldDescriptor.name =
        kept.map (·.1.text) := by
    rw [← List.forall₂_eq_eq_eq, List.forall₂_map_left_iff,
      List.forall₂_map_right_iff]
    exact hEach.imp fun _ _ hField =>
      (declaresName_of_fieldOf hField).1
  rw [hNames]
  exact hKept.map _

/- Fields are left out in declaration order. -/
theorem leftOut_sublist
    (fields : List (Identifier × FieldDecl)) :
    (leftOut (fieldResults known fields)).Sublist
      (fields.map (·.1.text)) := by
  induction fields with
  | nil => exact .slnil
  | cons field fields ih =>
      rw [fieldResults, List.map_cons]
      cases hField : fieldOf known field.1 field.2 with
      | error reason => exact ih.cons_cons _
      | ok found =>
          cases found with
          | none => exact ih.cons_cons _
          | some f => exact ih.cons _

variable {known}

theorem mem_foundFields_iff
    {fields : List (Identifier × FieldDecl)}
    {f : FieldDescriptor} :
    f ∈ foundFields (fieldResults known fields) ↔
      ∃ field ∈ fields,
        fieldOf known field.1 field.2 = .ok (some f) := by
  rw [foundFields, List.mem_filterMap, fieldResults, List.map_map]
  simp [mem_successes_iff]

theorem mem_leftOut
    {fields : List (Identifier × FieldDecl)}
    {field : Identifier × FieldDecl}
    (hMem : field ∈ fields)
    (h : ∀ f, fieldOf known field.1 field.2 ≠ .ok (some f)) :
    field.1.text ∈ leftOut (fieldResults known fields) := by
  induction fields with
  | nil => cases hMem
  | cons first fields ih =>
      rw [fieldResults, List.map_cons]
      rcases List.mem_cons.mp hMem with rfl | hRest
      · cases hField : fieldOf known field.1 field.2 with
        | error reason => exact List.mem_cons_self
        | ok found =>
            cases found with
            | none => exact List.mem_cons_self
            | some f => exact absurd hField (h f)
      · have hLater := ih hRest
        cases fieldOf known first.1 first.2 with
        | error reason => exact List.mem_cons_of_mem _ hLater
        | ok found =>
            cases found with
            | none => exact List.mem_cons_of_mem _ hLater
            | some f => exact hLater

end

section

variable (known : String → Bool) (members : List Member)
variable (decl : StructDecl)

/- The attributes of a node are the fields found for it. -/
theorem nodeOf_attributes :
    (nodeOf known members decl).1.attributes =
      foundFields (fieldResults known (namedFieldsOf decl.fields)) := by
  have hTag :
      ((nodeOf known members decl).1.category.tagFields.filter
        fun f => !f.discriminant) = [] := by
    cases (nodeOf known members decl).1.category <;> rfl
  have hDeclared :
      declaredFields known decl =
        foundFields
          (fieldResults known (namedFieldsOf decl.fields)) := by
    rw [declaredFields, foundFields, fieldResults, List.map_map]
    rfl
  rw [NodeSchema.attributes, nodeOf_fields, List.filter_append, hTag,
    List.nil_append, ← hDeclared, List.filter_eq_self]
  intro f hMem
  rw [(wellFormed_of_mem_declaredFields hMem).untagged]
  rfl

/- The warnings on a node are on the fields that failed. -/
theorem nodeOf_warnings :
    (nodeOf known members decl).2 =
      failures decl.name
        (fieldResults known (namedFieldsOf decl.fields)) :=
  rfl

end

------------------------------------------------------------
-- Literals
------------------------------------------------------------

theorem initialises_fillLine
    (node : NodeSchema)
    (f : FieldDescriptor) :
    (fillLine node f).Initialises f.name := by
  unfold fillLine
  cases f.presence with
  | required =>
      refine ⟨localName f
          ++ ".ok_or_else(|| DecodeError::missing_field(",
        [.literal node.name, .code ", ", .literal f.wireName,
          .code "))?,"], ?_⟩
      rw [← String.append_assoc]
  | optional =>
      refine ⟨localName f ++ ",", [], ?_⟩
      rw [← String.append_assoc]
      rfl
  | defaulted =>
      refine ⟨localName f ++ ".unwrap_or_default(),", [], ?_⟩
      rw [← String.append_assoc]
      rfl

/- The literal has a line for each attribute and skipped field. -/
theorem attrsMethod_literal
    (node : NodeSchema) :
    ∃ lines,
      (attrsMethod node).body =
        readLines node
          ++ .plain 2 ("Ok(" ++ node.name ++ " \x7b") :: lines
          ++ [.plain 2 "\x7d)"] ∧
      List.Forall₂ Line.Initialises lines
        (node.attributes.map FieldDescriptor.name
          ++ node.skipped) := by
  refine ⟨node.attributes.map (fillLine node) ++ node.skipped.map
    (fun name => .plain 3 (name ++ ": Default::default(),")),
    by simp [attrsMethod], ?_⟩
  apply List.rel_append
  · rw [List.forall₂_map_left_iff, List.forall₂_map_right_iff,
      List.forall₂_same]
    exact fun f _ => initialises_fillLine node f
  · rw [List.forall₂_map_left_iff, List.forall₂_same]
    intro name _
    refine ⟨"Default::default(),", [], ?_⟩
    rw [String.append_assoc]
    rfl

/- The unit of a schema has the methods for all its types. -/
theorem mem_methods
    {schema : Schema}
    {m : Method}
    (category : Category)
    (type : String)
    (hType : type ∈ DecoderUnit.typesIn schema category)
    (hMethod : m ∈ DecoderUnit.methodsIn schema category) :
    m ∈ (DecoderUnit.ofSchema schema).methods := by
  have hOrder : category ∈ Category.order := by
    cases category <;> decide
  have hSection :
      DecoderUnit.sectionOf? schema category =
        some ⟨category.label,
          DecoderUnit.methodsIn schema category⟩ := by
    have hTypes :
        (DecoderUnit.typesIn schema category).isEmpty = false :=
      List.isEmpty_eq_false_iff_exists_mem.mpr ⟨type, hType⟩
    rw [DecoderUnit.sectionOf?, hTypes]
    rfl
  rw [DecoderUnit.methods, List.mem_append, List.mem_flatten]
  exact .inl ⟨_, List.mem_map_of_mem
    (List.mem_filterMap.mpr ⟨category, hOrder, hSection⟩), hMethod⟩

theorem attrsMethod_mem_methods
    {schema : Schema}
    {node : NodeSchema}
    (h : node ∈ schema.nodes) :
    attrsMethod node ∈ (DecoderUnit.ofSchema schema).methods := by
  have hNode : node ∈ schema.nodesIn node.category :=
    List.mem_filter.mpr ⟨h, decide_eq_true rfl⟩
  apply mem_methods node.category node.name
  · exact List.mem_append_right _ (List.mem_map_of_mem hNode)
  · rw [DecoderUnit.methodsIn, List.append_assoc, List.mem_append,
      List.mem_append, List.mem_flatten]
    refine .inr (.inl ⟨[nodeMethod node, attrsMethod node],
      List.mem_map.mpr ⟨node, hNode, rfl⟩, ?_⟩)
    exact List.mem_cons_of_mem _ List.mem_cons_self

theorem sumMethod_mem_methods
    {schema : Schema}
    {sum : SumType}
    (hNodup : (schema.sums.map SumType.category).Nodup)
    (h : sum ∈ schema.sums) :
    sumMethod sum ∈ (DecoderUnit.ofSchema schema).methods := by
  have hSum : schema.sum? sum.category = some sum :=
    find?_key_of_mem hNodup h
  apply mem_methods sum.category sum.name
  · rw [DecoderUnit.typesIn, hSum]
    exact List.mem_cons_self
  · rw [DecoderUnit.methodsIn, hSum]
    exact List.mem_cons_self

------------------------------------------------------------
-- Nodes
------------------------------------------------------------

/-
  Where the warnings on a structure are those of its fields, all
  of its fields are accounted for.
-/
theorem nodeOf_accounts
    {known : String → Bool}
    {members : List Member}
    {decl : StructDecl}
    {warnings : List Warning}
    (hNodup : ((namedFieldsOf decl.fields).map (·.1.text)).Nodup)
    (hWarned :
      ∀ name,
        warned warnings decl.name (some name) =
          warned (nodeOf known members decl).2 decl.name
            (some name)) :
    (nodeOf known members decl).1.Accounts warnings
      (namedFieldsOf decl.fields) := by
  have hPerm := foundFields_append_leftOut_perm known
    (namedFieldsOf decl.fields)
  have hApart := List.nodup_append.mp (hPerm.nodup_iff.mpr hNodup)
  constructor
  case attributes =>
    rw [nodeOf_attributes]
    exact foundFields_sublist known _
  case skipped => exact leftOut_sublist known _
  case fields =>
    rintro ⟨name, field⟩ hMem
    have hCount :
        warned warnings decl.name (some name.text) =
          if (fieldOf known name field).isOk then 0 else 1 := by
      rw [hWarned, nodeOf_warnings]
      apply warned_failures
      · rw [fst_fieldResults]
        exact hNodup
      · exact List.mem_map.mpr ⟨_, hMem, rfl⟩
    have hSkipped :
        (∀ f, fieldOf known name field ≠ .ok (some f)) →
          name.text ∉ (foundFields (fieldResults known
              (namedFieldsOf decl.fields))).map
              FieldDescriptor.name ∧
            name.text ∈ leftOut (fieldResults known
              (namedFieldsOf decl.fields)) := by
      intro hNone
      have hLeft := mem_leftOut hMem hNone
      exact ⟨fun hFound => hApart.2.2 _ hFound _ hLeft rfl, hLeft⟩
    rw [NodeSchema.AccountsField, nodeOf_attributes]
    cases hField : fieldOf known name field with
    | error reason =>
        rw [hField] at hCount hSkipped
        rcases hSkipped nofun with ⟨hLost, hLeft⟩
        refine .inr ⟨hLost, hLeft, .inr ⟨?_, hCount⟩⟩
        rw [← fieldOf_eq_none_iff known name, hField]
        exact nofun
    | ok found =>
        rw [hField] at hCount
        cases found with
        | none =>
            rw [hField] at hSkipped
            rcases hSkipped nofun with ⟨hLost, hLeft⟩
            exact .inr ⟨hLost, hLeft,
              .inl ⟨(fieldOf_eq_none_iff known name).mp hField, hCount⟩⟩
        | some f =>
            have hFound :
                name.text ∈ (foundFields (fieldResults known
                  (namedFieldsOf decl.fields))).map
                    FieldDescriptor.name := by
              rw [← (declaresName_of_fieldOf hField).1]
              exact List.mem_map_of_mem
                (mem_foundFields_iff.mpr ⟨_, hMem, hField⟩)
            exact .inl ⟨hFound,
              fun hLeft => hApart.2.2 _ hFound _ hLeft rfl, hCount⟩
  case literal =>
    rcases attrsMethod_literal (nodeOf known members decl).1 with
      ⟨lines, hBody, hLines⟩
    refine ⟨lines, _, hBody, hLines, ?_⟩
    rw [nodeOf_attributes]
    exact hPerm

------------------------------------------------------------
-- Passes
------------------------------------------------------------

/- The sum types that enumerations are, before any is narrowed. -/
def foundSums
    (items : List Item) : List SumType × List Warning :=
  collectSums [] (enumsOf items)

/- The structures that are node types. -/
def nodeDecls
    (items : List Item) : List StructDecl × List Warning :=
  collectStructs (structsOf items)

/- The sum types with the variants that they keep. -/
def retainedSums
    (items : List Item) :
    List SumType × List Member × List Warning :=
  retainAll
    (fun name => (nodeDecls items).1.any fun d => d.name = name)
    [] (foundSums items).1

/- The node type that a structure among items is. -/
def itemNode
    (items : List Item)
    (decl : StructDecl) : NodeSchema × List Warning :=
  nodeOf (knownName (nodeDecls items).1 (retainedSums items).1)
    (retainedSums items).2.1 decl

theorem extractItems_nodes
    (items : List Item) :
    (extractItems items).schema.nodes =
      (nodeDecls items).1.map fun d => (itemNode items d).1 :=
  List.map_map

theorem extractItems_warnings
    (items : List Item) :
    (extractItems items).warnings =
      (foundSums items).2 ++ (nodeDecls items).2
        ++ (retainedSums items).2.2
        ++ (nodeDecls items).1.flatMap fun d =>
          (itemNode items d).2 := by
  rw [List.flatMap_def, ← Function.comp_def, ← List.map_map]
  rfl

/- What is extracted is the schema of the items of a source. -/
theorem extract_eq_ok_iff
    {source : String}
    {extraction : Extraction} :
    extract source = .ok extraction ↔
      ∃ items,
        items? source = some items ∧
          (extractItems items).schema.isEmpty = false ∧
          extraction = extractItems items := by
  unfold extract
  cases items? source with
  | none => simp
  | some items =>
      dsimp only
      constructor
      · intro h
        split at h
        · cases h
        · rename_i hNodes
          cases h
          exact ⟨items, rfl, eq_false_of_ne_true hNodes, rfl⟩
      · rintro ⟨_, hItems, hNodes, rfl⟩
        cases hItems
        rw [hNodes]
        rfl

section

variable {items : List Item}

theorem names_foundSums
    (items : List Item) :
    ((foundSums items).1.map SumType.name).Sublist
      ((enumsOf items).map EnumDecl.name) :=
  names_collectSums [] (enumsOf items)

theorem subset_nodeDecls
    (hDistinct : DistinctNames items) :
    (nodeDecls items).1.Sublist (structsOf items) := by
  have hNodup := (List.nodup_append.mp hDistinct.types).2.1
  rw [nodeDecls, collectStructs_fst hNodup]
  exact List.filter_sublist

/- Of an enumeration only the passes over sums warn. -/
theorem warned_enum
    (hDistinct : DistinctNames items)
    {name : String}
    {part : Option String}
    (hName : name ∈ (enumsOf items).map EnumDecl.name) :
    warned (extractItems items).warnings name part =
      warned (foundSums items).2 name part +
        warned (retainedSums items).2.2 name part := by
  have hApart := (List.nodup_append.mp hDistinct.types).2.2
  have hStructs : warned (nodeDecls items).2 name part = 0 := by
    apply warned_eq_zero
    intro w hMem hNode
    have hStruct := (mem_collectStructs_snd hMem).2
    exact absurd hNode.symm (hApart _ hName _ hStruct)
  have hNodes :
      warned ((nodeDecls items).1.flatMap fun d =>
        (itemNode items d).2) name part = 0 := by
    apply warned_eq_zero
    intro w hMem hNode
    rcases List.mem_flatMap.mp hMem with ⟨d, hDecl, hOwn⟩
    rw [(mem_failures hOwn).1] at hNode
    have hStruct :=
      List.mem_map_of_mem (f := StructDecl.name)
        ((subset_nodeDecls hDistinct).subset hDecl)
    exact absurd hNode.symm (hApart _ hName _ hStruct)
  rw [extractItems_warnings, warned_append, warned_append,
    warned_append, hStructs, hNodes, Nat.add_zero, Nat.add_zero]

/- Of a structure only the passes over structures warn. -/
theorem warned_struct
    (hDistinct : DistinctNames items)
    {name : String}
    {part : Option String}
    (hName : name ∈ (structsOf items).map StructDecl.name) :
    warned (extractItems items).warnings name part =
      warned (nodeDecls items).2 name part +
        warned ((nodeDecls items).1.flatMap fun d =>
          (itemNode items d).2) name part := by
  have hApart := (List.nodup_append.mp hDistinct.types).2.2
  have hFound : warned (foundSums items).2 name part = 0 := by
    apply warned_eq_zero
    intro w hMem hNode
    exact absurd hNode
      (hApart _ (node_collectSums hMem) _ hName)
  have hRetained : warned (retainedSums items).2.2 name part = 0 := by
    apply warned_eq_zero
    intro w hMem hNode
    have hSum := (names_foundSums items).subset
      (mem_retainAll_warnings hMem).1
    exact absurd hNode (hApart _ hSum _ hName)
  rw [extractItems_warnings, warned_append, warned_append,
    warned_append, hFound, hRetained, Nat.add_zero, Nat.zero_add]

/- A structure is a node type, or there is one warning on it. -/
theorem struct_accounts
    (hDistinct : DistinctNames items)
    {d : StructDecl}
    (hMem : d ∈ structsOf items) :
    KeptOrWarned
      (d.name ∈ (extractItems items).schema.nodes.map
        NodeSchema.name)
      (warned (extractItems items).warnings d.name none) := by
  have hNodes :
      (extractItems items).schema.nodes.map NodeSchema.name =
        (nodeDecls items).1.map StructDecl.name := by
    rw [extractItems_nodes, List.map_map]
    rfl
  have hFields :
      warned ((nodeDecls items).1.flatMap fun d =>
        (itemNode items d).2) d.name none = 0 := by
    apply warned_eq_zero
    intro w hWarning _ hNone
    rcases List.mem_flatMap.mp hWarning with ⟨_, _, hOwn⟩
    rcases mem_failures hOwn with ⟨_, name, _, hField⟩
    rw [hField] at hNone
    cases hNone
  rw [hNodes, warned_struct hDistinct (List.mem_map_of_mem hMem),
    hFields, Nat.add_zero]
  exact collectStructs_accounts
    (List.nodup_append.mp hDistinct.types).2.1 hMem

/- The fields of a node type are accounted for. -/
theorem itemNode_accounts
    (hDistinct : DistinctNames items)
    {d : StructDecl}
    (hMem : d ∈ (nodeDecls items).1) :
    (itemNode items d).1.Accounts (extractItems items).warnings
      (namedFieldsOf d.fields) := by
  have hDecl := (subset_nodeDecls hDistinct).subset hMem
  apply nodeOf_accounts (hDistinct.fields d hDecl)
  intro name
  have hStructs :
      warned (nodeDecls items).2 d.name (some name) = 0 := by
    apply warned_eq_zero
    intro w hWarning _ hSome
    rw [(mem_collectStructs_snd hWarning).1] at hSome
    cases hSome
  rw [warned_struct hDistinct (List.mem_map_of_mem hDecl), hStructs,
    Nat.zero_add]
  apply warned_flatMap (nodup_collectStructs (structsOf items)) _ hMem
  intro other _ w hOwn
  exact (mem_failures hOwn).1

/- The sums of the schema are named as those found. -/
theorem names_extractItems_sums
    (items : List Item) :
    (extractItems items).schema.sums.map SumType.name =
      (foundSums items).1.map SumType.name :=
  names_retainAll _ _ _

/- An enumeration with a tag is a sum, or has one warning. -/
theorem enum_accounts
    (hDistinct : DistinctNames items)
    {d : EnumDecl}
    (hMem : d ∈ enumsOf items)
    (hTagged : d.IsTagged) :
    KeptOrWarned
      (d.name ∈ (extractItems items).schema.sums.map SumType.name)
      (warned (extractItems items).warnings d.name none) := by
  have hNodup := (List.nodup_append.mp hDistinct.types).1
  rcases collectSums_accounts [] hNodup hMem with
    ⟨before, after, own, hStep, hFresh, hPrefix, hName, hWarned⟩
  have hRetained : warned (retainedSums items).2.2 d.name none = 0 := by
    apply warned_eq_zero
    intro w hWarning _ hNone
    exact (mem_retainAll_warnings hWarning).2 hNone
  have hKept :
      d.name ∈ (foundSums items).1.map SumType.name ↔
        d.name ∈ after.map SumType.name :=
    ⟨hName, fun hAfter => List.map_subset _ hPrefix.subset hAfter⟩
  rw [names_extractItems_sums, hKept,
    warned_enum hDistinct (List.mem_map_of_mem hMem), hRetained,
    Nat.add_zero, foundSums, hWarned]
  exact hStep.accounts hTagged hFresh

/-
  The sum found for an enumeration has the variants that fit, and
  the pass warns of the others.
-/
theorem exists_foundSum
    (hDistinct : DistinctNames items)
    {d : EnumDecl}
    (hMem : d ∈ enumsOf items)
    (hName : d.name ∈ (foundSums items).1.map SumType.name) :
    ∃ sum ∈ (foundSums items).1,
      sum.name = d.name ∧
        sum.variants =
          successes ((variantResults d).map Prod.snd) ∧
        ∀ part,
          warned (foundSums items).2 d.name part =
            warned (failures d.name (variantResults d)) d.name
              part := by
  have hNodup := (List.nodup_append.mp hDistinct.types).1
  rcases collectSums_accounts [] hNodup hMem with
    ⟨before, after, own, hStep, hFresh, hPrefix, hAfter, hWarned⟩
  rcases hStep.exists_added hFresh (hAfter hName) with
    ⟨sum, hSum, hSumOf⟩
  rcases sumOf_some hSumOf with ⟨hSumName, hVariants, hOwn⟩
  rw [hOwn] at hWarned
  exact ⟨sum, hPrefix.subset hSum, hSumName, hVariants, hWarned⟩

/- What is kept of the variants of a sum that is found. -/
theorem exists_retainedSum
    (hDistinct : DistinctNames items)
    {sum : SumType}
    (hMem : sum ∈ (foundSums items).1)
    (hVariants : (sum.variants.map Variant.name).Nodup) :
    ∃ kept ∈ (retainedSums items).1,
      kept.name = sum.name ∧
        kept.variants ⊆ sum.variants ∧
        (∀ v ∈ sum.variants,
          KeptOrWarned (v.name ∈ kept.variants.map Variant.name)
            (warned (retainedSums items).2.2 sum.name
              (some v.name))) ∧
        ∀ name ∉ sum.variants.map Variant.name,
          warned (retainedSums items).2.2 sum.name (some name) =
            0 := by
  have hNodup := (List.nodup_append.mp hDistinct.types).1
  exact retainAll_accounts (hNodup.sublist (names_foundSums items))
    hMem hVariants

/- A variant of a sum is kept, or there is one warning on it. -/
theorem variant_accounts
    (hDistinct : DistinctNames items)
    {d : EnumDecl}
    {sum : SumType}
    {v : VariantDecl}
    (hMem : d ∈ enumsOf items)
    (hSum : sum ∈ (extractItems items).schema.sums)
    (hName : sum.name = d.name)
    (hVariant : v ∈ d.variants) :
    KeptOrWarned
      (v.name.text ∈ sum.variants.map Variant.name)
      (warned (extractItems items).warnings d.name
        (some v.name.text)) := by
  have hNodup :
      ((extractItems items).schema.sums.map SumType.name).Nodup := by
    rw [names_extractItems_sums]
    exact (List.nodup_append.mp hDistinct.types).1.sublist
      (names_foundSums items)
  have hFound : d.name ∈ (foundSums items).1.map SumType.name := by
    rw [← names_extractItems_sums, ← hName]
    exact List.mem_map_of_mem hSum
  rcases exists_foundSum hDistinct hMem hFound with
    ⟨whole, hWhole, hWholeName, hVariants, hWarned⟩
  have hNames : (whole.variants.map Variant.name).Nodup := by
    rw [hVariants]
    exact (hDistinct.variants d hMem).sublist (names_variantResults d)
  rcases exists_retainedSum hDistinct hWhole hNames with
    ⟨kept, hKept, hKeptName, hSubset, hAccounts, hOthers⟩
  have hSame : kept = sum :=
    List.inj_on_of_nodup_map hNodup hKept hSum
      (hKeptName.trans (hWholeName.trans hName.symm))
  rw [hSame] at hSubset hAccounts
  rw [hWholeName] at hAccounts hOthers
  have hResults : ((variantResults d).map Prod.fst).Nodup := by
    rw [variantResults, List.map_map]
    exact hDistinct.variants d hMem
  rw [warned_enum hDistinct (List.mem_map_of_mem hMem), hWarned,
    warned_failures hResults (List.mem_map.mpr ⟨v, hVariant, rfl⟩)]
  cases hResult : variantOf v with
  | ok found =>
      have hMember : found ∈ whole.variants := by
        rw [hVariants, mem_successes_iff, variantResults,
          List.map_map, List.mem_map]
        exact ⟨v, hVariant, hResult⟩
      rw [← (declaresName_of_variantOf hResult).1,
        if_pos (by rfl), Nat.zero_add]
      exact hAccounts found hMember
  | error reason =>
      have hLost : v.name.text ∉ whole.variants.map Variant.name := by
        intro hKeptName
        rcases List.mem_map.mp hKeptName with ⟨found, hMember, hText⟩
        rw [hVariants, mem_successes_iff, variantResults,
          List.map_map, List.mem_map] at hMember
        rcases hMember with ⟨other, hOther, hFits⟩
        have hSameDecl : other = v :=
          List.inj_on_of_nodup_map (hDistinct.variants d hMem) hOther
            hVariant
            ((declaresName_of_variantOf hFits).1.symm.trans hText)
        rw [hSameDecl] at hFits
        cases hResult.symm.trans hFits
      rw [hOthers _ hLost]
      exact .inr
        ⟨fun hKept => hLost (List.map_subset _ hSubset hKept), rfl⟩

end

/- All declarations among items are accounted for. -/
theorem extractItems_accounts
    {items : List Item}
    (hDistinct : DistinctNames items) :
    (extractItems items).Accounts items where
  order := by
    rw [extractItems_nodes, List.map_map]
    exact (subset_nodeDecls hDistinct).map StructDecl.name
  structs := fun _ hMem => struct_accounts hDistinct hMem
  fields := by
    intro d hMem node hNode hName
    rw [extractItems_nodes] at hNode
    rcases List.mem_map.mp hNode with ⟨decl, hDecl, rfl⟩
    have hSame : decl = d :=
      List.inj_on_of_nodup_map
        (List.nodup_append.mp hDistinct.types).2.1
        ((subset_nodeDecls hDistinct).subset hDecl) hMem hName
    rw [← hSame]
    exact itemNode_accounts hDistinct hDecl
  literals := fun _ hNode => attrsMethod_mem_methods hNode
  enums := fun _ hMem hTagged => enum_accounts hDistinct hMem hTagged
  variants := fun _ hMem _ hSum hName _ hVariant =>
    variant_accounts hDistinct hMem hSum hName hVariant

/-
  Extraction loses nothing silently: every declaration of a source
  is accounted for by the schema and its warnings.
-/
theorem extraction_loses_nothing
    (source : String)
    (items : List Item)
    (extraction : Extraction)
    (hItems : items? source = some items)
    (hDistinct : DistinctNames items)
    (h : extract source = .ok extraction) :
    extraction.Accounts items := by
  unfold extract at h
  rw [hItems] at h
  dsimp only at h
  split at h
  · cases h
  · cases h
    exact extractItems_accounts hDistinct

/- An expression with a field that is skipped, and one that fails. -/
def skippingSource : String :=
  "#[serde(tag = \"expression_name\")]\nenum Expr "
    ++ "\x7b Not(Not), Again(Not) \x7d\nstruct Not "
    ++ "\x7b #[serde(skip)] r#type: Span, inner: Box<Expr>, "
    ++ "odd: Span \x7d"

/-
  There is a warning on the second variant and on the last field
  of that source, and all of its declarations are accounted for.
-/
theorem skippingSource_accounts :
    ∃ items extraction,
      items? skippingSource = some items ∧
        DistinctNames items ∧
        extract skippingSource = .ok extraction ∧
        (extraction.schema.nodes.map fun node =>
          (node.attributes.map FieldDescriptor.name, node.skipped)) =
            [(["inner"], ["r#type", "odd"])] ∧
        (extraction.warnings.map fun w => (w.node, w.field)) =
          [("Expr", some "Again"), ("Not", some "odd")] ∧
        extraction.Accounts items := by
  have hDistinct :
      (items? skippingSource).map
        (fun items => decide (DistinctNames items)) = some true := by
    decide +kernel
  have hSchema :
      (extract skippingSource).toOption.map (fun extraction =>
          (extraction.schema.nodes.map fun node =>
              (node.attributes.map FieldDescriptor.name,
                node.skipped),
            extraction.warnings.map fun w => (w.node, w.field))) =
        some ([(["inner"], ["r#type", "odd"])],
          [("Expr", some "Again"), ("Not", some "odd")]) := by
    decide +kernel
  rcases Option.map_eq_some_iff.mp hDistinct with
    ⟨items, hItems, hNames⟩
  cases h : extract skippingSource with
  | error e =>
      rw [h] at hSchema
      cases hSchema
  | ok extraction =>
      rw [h] at hSchema
      rcases Prod.ext_iff.mp (Option.some.inj hSchema) with
        ⟨hNodes, hWarnings⟩
      exact ⟨items, extraction, hItems, of_decide_eq_true hNames, rfl,
        hNodes, hWarnings,
        extraction_loses_nothing skippingSource items extraction
          hItems (of_decide_eq_true hNames) h⟩

end TreeWire
