import TreeWire.Proofs.Schema.Conservation

/-
  Names in documents and the arms of a unit.

  The attributes of a node have the names that the declarations
  of their fields give, and so have the variants of a sum; no pass
  makes names different.  In the matches of a unit the arms stand
  in the same order.  So an arm is taken for its name unless one
  before it has the same name, and all arms are taken where the
  declarations give different names.

  Key definitions include:
    * `Line.pattern?`
    * `Method.HasArm`
    * `Method.Takes`
    * `NodeSchema.NamedAs`
    * `SumType.NamedAs`

  Main statements:
    * `hasArm_attributeLines`
    * `hasArm_variantLine`
    * `extracted_names_as_declared`
    * `sameNameSource_shadowed`
-/

namespace TreeWire

open Declaration

------------------------------------------------------------
-- Arms
------------------------------------------------------------

/- The text that a line stands for, if it starts an arm. -/
def Line.pattern?
    (line : Line) : Option String :=
  match line.pieces with
  | .literal pattern :: _ => some pattern
  | _ => none

/- The texts that arms among lines stand for, in their order. -/
def patterns
    (lines : List Line) : List String :=
  lines.filterMap Line.pattern?

/- An arm for a key stands in a method, behind those for others. -/
def Method.HasArm
    (m : Method)
    (others : List String)
    (key : String)
    (arm : List Line) : Prop :=
  ∃ front back,
    m.body = front ++ arm ++ back ∧
      patterns front = others ∧
      patterns arm = [key]

/- The match in a method takes the first arm for a key. -/
def Method.Takes
    (m : Method)
    (key : String)
    (arm : List Line) : Prop :=
  ∃ others, m.HasArm others key arm ∧ key ∉ others

theorem patterns_append
    (lines others : List Line) :
    patterns (lines ++ others) = patterns lines ++ patterns others :=
  List.filterMap_append

section

variable {α : Type} {m : Method} {head : List Line}
variable {key : α → String} {arm : α → List Line}

theorem patterns_flatMap
    (hArm : ∀ a, patterns (arm a) = [key a])
    (as : List α) :
    patterns (as.flatMap arm) = as.map key := by
  induction as with
  | nil => rfl
  | cons a as ih =>
      rw [List.flatMap_cons, patterns_append, hArm, ih]
      rfl

/- In a method with one arm for each of a list, arms keep order. -/
theorem hasArm_of_body
    {as before after : List α}
    {a : α}
    (hBody : head ++ as.flatMap arm <+: m.body)
    (hHead : patterns head = [])
    (hArm : ∀ a, patterns (arm a) = [key a])
    (hSplit : as = before ++ a :: after) :
    m.HasArm (before.map key) (key a) (arm a) := by
  rcases hBody with ⟨tail, hBody⟩
  refine ⟨head ++ before.flatMap arm, after.flatMap arm ++ tail, ?_,
    ?_, hArm a⟩
  · rw [← hBody, hSplit, List.flatMap_append, List.flatMap_cons]
    simp only [List.append_assoc]
  · rw [patterns_append, hHead, List.nil_append,
      patterns_flatMap hArm]

/- Where keys are different, every arm of the list is taken. -/
theorem takes_of_nodup
    {as : List α}
    {a : α}
    (key : α → String)
    (arm : α → List Line)
    (hArms :
      ∀ before a after, as = before ++ a :: after →
        m.HasArm (before.map key) (key a) (arm a))
    (hNodup : (as.map key).Nodup)
    (hMem : a ∈ as) :
    m.Takes (key a) (arm a) := by
  rcases List.append_of_mem hMem with ⟨before, after, hSplit⟩
  refine ⟨before.map key, hArms before a after hSplit, ?_⟩
  intro hBefore
  rw [hSplit, List.map_append] at hNodup
  exact (List.nodup_append.mp hNodup).2.2 _ hBefore _
    List.mem_cons_self rfl

end

------------------------------------------------------------
-- Attributes and Variants
------------------------------------------------------------

theorem patterns_attributeLines
    (node : NodeSchema)
    (f : FieldDescriptor) :
    patterns (attributeLines node f) = [f.wireName] := by
  unfold attributeLines
  split <;> rfl

/- The lines in front of the arms for attributes. -/
def attributesHead
    (node : NodeSchema) : List Line :=
  (node.attributes.map fun f =>
      .plain 2 ("let mut " ++ localName f ++ " = None;"))
    ++ [.plain 2 "while let Some(key) = self.scan.next_key()? \x7b"]
    ++ (if node.hasScalar then
          [.plain 3 "let token = self.scan.next_value()?;"]
        else
          [])
    ++ [.plain 3 "match key.as_str() \x7b"]

theorem patterns_attributesHead
    (node : NodeSchema) :
    patterns (attributesHead node) = [] := by
  have hLocals :
      patterns (node.attributes.map fun f =>
        .plain 2 ("let mut " ++ localName f ++ " = None;")) = [] := by
    rw [patterns, List.filterMap_eq_nil_iff]
    intro line hMem
    rcases List.mem_map.mp hMem with ⟨f, _, rfl⟩
    rfl
  rw [attributesHead, patterns_append, patterns_append,
    patterns_append, hLocals]
  split <;> rfl

theorem prefix_readLines
    {node : NodeSchema}
    (h : node.attributes ≠ []) :
    attributesHead node
        ++ node.attributes.flatMap (attributeLines node) <+:
      readLines node := by
  have hSome : ¬ node.attributes.isEmpty = true :=
    fun hEmpty => h (List.isEmpty_iff.mp hEmpty)
  rw [readLines, if_neg hSome, List.flatMap_def]
  exact List.prefix_append _ _

/- The arm of an attribute stands behind those before it. -/
theorem hasArm_attributeLines
    {node : NodeSchema}
    {before after : List FieldDescriptor}
    {f : FieldDescriptor}
    (h : node.attributes = before ++ f :: after) :
    (attrsMethod node).HasArm
      (before.map FieldDescriptor.wireName) f.wireName
      (attributeLines node f) := by
  have hSome : node.attributes ≠ [] := by
    rw [h]
    exact List.append_ne_nil_of_right_ne_nil _ (List.cons_ne_nil _ _)
  have hBody : readLines node <+: (attrsMethod node).body := by
    simp only [attrsMethod, List.append_assoc]
    exact List.prefix_append _ _
  exact hasArm_of_body ((prefix_readLines hSome).trans hBody)
    (patterns_attributesHead node) (patterns_attributeLines node) h

/- The arm of a variant stands behind those before it. -/
theorem hasArm_variantLine
    {sum : SumType}
    {before after : List Variant}
    {v : Variant}
    (h : sum.variants = before ++ v :: after) :
    (sumMethod sum).HasArm (before.map Variant.wireName) v.wireName
      [variantLine sum v] := by
  have hBody :
      openObject (emptyError sum.name)
          ++ [⟨2, [.code "let name = self.read_discriminant(",
                .literal sum.tag, .code ")?;"]⟩,
              .plain 2 "match name.as_str() \x7b"]
          ++ sum.variants.flatMap (fun v => [variantLine sum v]) <+:
        (sumMethod sum).body := by
    rw [sumMethod, ← List.map_eq_flatMap]
    exact List.prefix_append _ _
  exact hasArm_of_body hBody rfl (fun _ => rfl) h

------------------------------------------------------------
-- Declared Names
------------------------------------------------------------

/- No two fields that are carried declare the same name. -/
def Declaration.StructDecl.DistinctWireNames
    (decl : StructDecl) : Prop :=
  (namedFieldsOf decl.fields).Pairwise fun a b =>
    ¬ a.2.IsSkipped → ¬ b.2.IsSkipped →
      ∀ name,
        DeclaresName a.2.attributes a.1 name →
          ¬ DeclaresName b.2.attributes b.1 name

/- No two variants declare the same name. -/
def Declaration.EnumDecl.DistinctWireNames
    (decl : EnumDecl) : Prop :=
  decl.variants.Pairwise fun a b =>
    ∀ name,
      DeclaresName a.attributes a.name name →
        ¬ DeclaresName b.attributes b.name name

/-
  The attributes of a node have the names that fields of its
  structure declare, and their arms stand in the same order.
-/
structure NodeSchema.NamedAs
    (node : NodeSchema)
    (decl : StructDecl) : Prop where
  name : node.name = decl.name
  declared :
    List.SublistForall₂
      (fun f field =>
        f.name = field.1.text ∧ ¬ field.2.IsSkipped ∧
          DeclaresName field.2.attributes field.1 f.wireName)
      node.attributes (namedFieldsOf decl.fields)
  arms :
    ∀ before f after,
      node.attributes = before ++ f :: after →
        (attrsMethod node).HasArm
          (before.map FieldDescriptor.wireName) f.wireName
          (attributeLines node f)
  distinct :
    decl.DistinctWireNames →
      (node.attributes.map FieldDescriptor.wireName).Nodup ∧
        ∀ f ∈ node.attributes,
          (attrsMethod node).Takes f.wireName (attributeLines node f)

/-
  The variants of a sum have the names that variants of its
  enumeration declare, and their arms stand in the same order.
-/
structure SumType.NamedAs
    (sum : SumType)
    (decl : EnumDecl) : Prop where
  name : sum.name = decl.name
  declared :
    List.SublistForall₂
      (fun v variant =>
        v.name = variant.name.text ∧
          DeclaresName variant.attributes variant.name v.wireName)
      sum.variants decl.variants
  arms :
    ∀ before v after,
      sum.variants = before ++ v :: after →
        (sumMethod sum).HasArm (before.map Variant.wireName)
          v.wireName [variantLine sum v]
  distinct :
    decl.DistinctWireNames →
      (sum.variants.map Variant.wireName).Nodup ∧
        ∀ v ∈ sum.variants,
          (sumMethod sum).Takes v.wireName [variantLine sum v]

section

variable {α β : Type} {R : α → β → Prop}

theorem exists_of_mem_sublistForall₂
    {as : List α}
    {bs : List β}
    {a : α}
    (h : List.SublistForall₂ R as bs)
    (hMem : a ∈ as) :
    ∃ b ∈ bs, R a b := by
  induction h with
  | nil => cases hMem
  | cons hFirst _ ih =>
      rcases List.mem_cons.mp hMem with rfl | hRest
      · exact ⟨_, List.mem_cons_self, hFirst⟩
      · rcases ih hRest with ⟨b, hB, hRel⟩
        exact ⟨b, List.mem_cons_of_mem _ hB, hRel⟩
  | cons_right _ ih =>
      rcases ih hMem with ⟨b, hB, hRel⟩
      exact ⟨b, List.mem_cons_of_mem _ hB, hRel⟩

/- What holds between elements holds between those they give. -/
theorem pairwise_of_sublistForall₂
    {S : β → β → Prop}
    {T : α → α → Prop}
    {as : List α}
    {bs : List β}
    (h : List.SublistForall₂ R as bs)
    (hPairs : bs.Pairwise S)
    (hGives : ∀ a b a' b', R a b → R a' b' → S b b' → T a a') :
    as.Pairwise T := by
  induction h with
  | nil => exact .nil
  | cons hFirst hRest ih =>
      rw [List.pairwise_cons] at hPairs ⊢
      refine ⟨?_, ih hPairs.2⟩
      intro a' hMem
      rcases exists_of_mem_sublistForall₂ hRest hMem with
        ⟨b', hB, hRel⟩
      exact hGives _ _ _ _ hFirst hRel (hPairs.1 b' hB)
  | cons_right _ ih => exact ih (List.pairwise_cons.mp hPairs).2

theorem SublistForall₂.sublist_left
    {as as' : List α}
    {bs : List β}
    (h : List.SublistForall₂ R as bs)
    (hSub : as'.Sublist as) :
    List.SublistForall₂ R as' bs := by
  induction h generalizing as' with
  | nil =>
      rw [List.sublist_nil.mp hSub]
      exact .nil
  | cons hFirst _ ih =>
      cases hSub with
      | cons _ hSub => exact .cons_right (ih hSub)
      | cons_cons _ hSub => exact .cons hFirst (ih hSub)
  | cons_right _ ih => exact .cons_right (ih hSub)

end

------------------------------------------------------------
-- Extraction
------------------------------------------------------------

/- The fields found for a node have the names they declare. -/
theorem nodeOf_namedAs
    (known : String → Bool)
    (members : List Member)
    (decl : StructDecl) :
    (nodeOf known members decl).1.NamedAs decl := by
  have hDeclared :
      List.SublistForall₂
        (fun f field =>
          f.name = field.1.text ∧ ¬ field.2.IsSkipped ∧
            DeclaresName field.2.attributes field.1 f.wireName)
        (nodeOf known members decl).1.attributes
        (namedFieldsOf decl.fields) := by
    rw [nodeOf_attributes]
    rcases List.sublistForall₂_iff.mp
        (foundFields_sublistForall₂ known
          (namedFieldsOf decl.fields)) with ⟨kept, hEach, hKept⟩
    refine List.sublistForall₂_iff.mpr ⟨kept, ?_, hKept⟩
    apply hEach.imp
    intro f field hField
    rcases declaresName_of_fieldOf hField with ⟨hName, hWire⟩
    refine ⟨hName, ?_, hWire⟩
    rw [← fieldOf_eq_none_iff known field.1, hField]
    exact nofun
  have hArms :
      ∀ before f after,
        (nodeOf known members decl).1.attributes =
            before ++ f :: after →
          (attrsMethod (nodeOf known members decl).1).HasArm
            (before.map FieldDescriptor.wireName) f.wireName
            (attributeLines (nodeOf known members decl).1 f) :=
    fun _ _ _ hSplit => hasArm_attributeLines hSplit
  refine ⟨rfl, hDeclared, hArms, ?_⟩
  intro hDistinct
  have hNodup :
      ((nodeOf known members decl).1.attributes.map
        FieldDescriptor.wireName).Nodup := by
    rw [List.Nodup, List.pairwise_map]
    apply pairwise_of_sublistForall₂ hDeclared hDistinct
    intro f a g b hF hG hPair hSame
    exact hPair hF.2.1 hG.2.1 _ hF.2.2 (hSame ▸ hG.2.2)
  exact ⟨hNodup, fun _ hMem =>
    takes_of_nodup FieldDescriptor.wireName _ hArms hNodup hMem⟩

/- The variants of an enumeration have the names they declare. -/
theorem successes_namedAs
    (decls : List VariantDecl) :
    List.SublistForall₂
      (fun v variant =>
        v.name = variant.name.text ∧
          DeclaresName variant.attributes variant.name v.wireName)
      (successes (decls.map variantOf)) decls := by
  induction decls with
  | nil => exact .nil
  | cons decl decls ih =>
      rw [List.map_cons]
      cases hVariant : variantOf decl with
      | error reason => exact .cons_right ih
      | ok v => exact .cons (declaresName_of_variantOf hVariant) ih

/- A sum that has lost variants has the names it declares. -/
theorem namedAs_of_sublist
    {decl : EnumDecl}
    {whole sum : SumType}
    (hFound : (sumOf decl).1 = some whole)
    (hName : sum.name = whole.name)
    (hKept : sum.variants.Sublist whole.variants) :
    sum.NamedAs decl := by
  rcases sumOf_some (Prod.ext hFound rfl : sumOf decl = (_, _)) with
    ⟨hWhole, hVariants, _⟩
  rw [variantResults, List.map_map] at hVariants
  rw [hVariants] at hKept
  have hDeclared := SublistForall₂.sublist_left
    (successes_namedAs decl.variants) hKept
  have hArms :
      ∀ before v after,
        sum.variants = before ++ v :: after →
          (sumMethod sum).HasArm (before.map Variant.wireName)
            v.wireName [variantLine sum v] :=
    fun _ _ _ hSplit => hasArm_variantLine hSplit
  refine ⟨hName.trans hWhole, hDeclared, hArms, ?_⟩
  intro hDistinct
  have hNodup : (sum.variants.map Variant.wireName).Nodup := by
    rw [List.Nodup, List.pairwise_map]
    apply pairwise_of_sublistForall₂ hDeclared hDistinct
    intro v a u b hV hU hPair hSame
    exact hPair _ hV.2 (hSame ▸ hU.2)
  exact ⟨hNodup, fun _ hMem =>
    takes_of_nodup Variant.wireName (fun v => [variantLine sum v])
      hArms hNodup hMem⟩

theorem extractItems_consistent
    (items : List Item) :
    (extractItems items).schema.Consistent := by
  rcases exists_assembled items with
    ⟨structs, sums, members, hAssembled, hSchema⟩
  rw [hSchema]
  exact hAssembled.consistent

/-
  The attributes and variants of a schema have the names that are
  declared for them, and the methods of its unit have arms for
  them in this order.
-/
theorem extracted_names_as_declared
    (source : String)
    (extraction : Extraction)
    (h : extract source = .ok extraction) :
    ∃ items,
      items? source = some items ∧
        (∀ node ∈ extraction.schema.nodes,
          attrsMethod node ∈
              (DecoderUnit.ofSchema extraction.schema).methods ∧
            ∃ decl ∈ structsOf items, node.NamedAs decl) ∧
        ∀ sum ∈ extraction.schema.sums,
          sumMethod sum ∈
              (DecoderUnit.ofSchema extraction.schema).methods ∧
            ∃ decl ∈ enumsOf items, sum.NamedAs decl := by
  unfold extract at h
  split at h
  · cases h
  rename_i items hItems
  dsimp only at h
  split at h
  · cases h
  cases h
  refine ⟨items, hItems, ?_, ?_⟩
  · intro node hNode
    refine ⟨attrsMethod_mem_methods hNode, ?_⟩
    rw [extractItems_nodes] at hNode
    rcases List.mem_map.mp hNode with ⟨decl, hDecl, rfl⟩
    exact ⟨decl, mem_collectStructs hDecl, nodeOf_namedAs _ _ decl⟩
  · intro sum hSum
    have hCategories := (extractItems_consistent items).categories
    refine ⟨sumMethod_mem_methods hCategories hSum, ?_⟩
    rcases exists_sublist_of_mem_retainAll hSum with
      ⟨whole, hWhole, hName, hKept⟩
    rcases exists_sumOf_of_mem hWhole with hNil | ⟨decl, hDecl, hFound⟩
    · cases hNil
    · exact ⟨decl, hDecl, namedAs_of_sublist hFound hName hKept⟩

/- An expression with a field and a variant that are renamed. -/
def renamedSource : String :=
  "#[serde(tag = \"expression_name\")]\nenum Expr \x7b "
    ++ "#[serde(rename = \"Minus\")] Neg(Neg), Not(Not) \x7d\n"
    ++ "struct Neg \x7b #[serde(rename = \"of\")] inner: Box<Expr>, "
    ++ "r#type: String \x7d\nstruct Not;"

/- The names and the arms of that source are as it declares them. -/
theorem renamedSource_names :
    ∃ items extraction,
      items? renamedSource = some items ∧
        extract renamedSource = .ok extraction ∧
        (extraction.schema.nodes.map fun node =>
          node.attributes.map FieldDescriptor.wireName) =
            [["of", "type"], []] ∧
        (extraction.schema.sums.map fun sum =>
          sum.variants.map Variant.wireName) = [["Minus", "Not"]] ∧
        (∀ node ∈ extraction.schema.nodes,
          ∃ decl ∈ structsOf items, node.NamedAs decl) ∧
        ∀ sum ∈ extraction.schema.sums,
          ∃ decl ∈ enumsOf items, sum.NamedAs decl := by
  have hSchema :
      (extract renamedSource).toOption.map (fun extraction =>
          (extraction.schema.nodes.map fun node =>
              node.attributes.map FieldDescriptor.wireName,
            extraction.schema.sums.map fun sum =>
              sum.variants.map Variant.wireName)) =
        some ([["of", "type"], []], [["Minus", "Not"]]) := by
    decide +kernel
  cases h : extract renamedSource with
  | error e =>
      rw [h] at hSchema
      cases hSchema
  | ok extraction =>
      rw [h] at hSchema
      rcases Prod.ext_iff.mp (Option.some.inj hSchema) with
        ⟨hNodes, hSums⟩
      rcases extracted_names_as_declared renamedSource extraction h
        with ⟨items, hItems, hNodeNames, hSumNames⟩
      exact ⟨items, extraction, hItems, rfl, hNodes, hSums,
        fun node hNode => (hNodeNames node hNode).2,
        fun sum hSum => (hSumNames sum hSum).2⟩

/- An expression of which two fields and two variants share a name. -/
def sameNameSource : String :=
  "#[serde(tag = \"expression_name\")]\nenum Expr \x7b "
    ++ "#[serde(rename = \"Neg\")] Not(Not), Neg(Neg) \x7d\n"
    ++ "struct Not \x7b #[serde(rename = \"name\")] title: String, "
    ++ "name: String \x7d\nstruct Neg;"

/- The names in a schema are not always different. -/
theorem sameNameSource_shadowed :
    ∃ extraction,
      extract sameNameSource = .ok extraction ∧
        (¬ ∀ node ∈ extraction.schema.nodes,
          (node.attributes.map FieldDescriptor.wireName).Nodup) ∧
        ¬ ∀ sum ∈ extraction.schema.sums,
          (sum.variants.map Variant.wireName).Nodup := by
  have hSchema :
      (extract sameNameSource).toOption.map (fun extraction =>
          (extraction.schema.nodes.map fun node =>
              node.attributes.map FieldDescriptor.wireName,
            extraction.schema.sums.map fun sum =>
              sum.variants.map Variant.wireName)) =
        some ([["name", "name"], []], [["Neg", "Neg"]]) := by
    decide +kernel
  cases h : extract sameNameSource with
  | error e =>
      rw [h] at hSchema
      cases hSchema
  | ok extraction =>
      rw [h] at hSchema
      rcases Prod.ext_iff.mp (Option.some.inj hSchema) with
        ⟨hNodes, hSums⟩
      dsimp only at hNodes hSums
      refine ⟨extraction, rfl, ?_, ?_⟩
      · intro hAll
        have hNames := List.forall_mem_map.mpr hAll
        rw [hNodes] at hNames
        exact absurd hNames (by decide)
      · intro hAll
        have hNames := List.forall_mem_map.mpr hAll
        rw [hSums] at hNames
        exact absurd hNames (by decide)

end TreeWire
