import TreeWire.Proofs.Schema.WireNames
import TreeWire.Proofs.Unit.Calls

/-
  What a unit quotes.

  The texts that the lines of a unit quote are listed here for
  each sum and each node type of a schema, in the order of the
  lines.  Apart from them, the lines do not depend on the names in
  documents: with the quoted texts blanked out they are those of
  the schema without names.

  Key definitions include:
    * `literals`
    * `Schema.literals`
    * `Line.blanked`

  Main statements:
    * `literals_lines`
    * `lines_ofSchema_unnamed`
-/

namespace TreeWire

------------------------------------------------------------
-- Quoted Texts
------------------------------------------------------------

/- The text that a piece quotes, if it quotes one. -/
def Piece.literal? : Piece → Option String
  | .literal value => some value
  | _ => none

/- The texts that a line quotes. -/
def Line.literals
    (line : Line) : List String :=
  line.pieces.filterMap Piece.literal?

/- The texts that lines quote, in their order. -/
def literals
    (lines : List Line) : List String :=
  lines.flatMap Line.literals

/-
  What the method of a sum quotes: its name where an object is
  empty, its tag, the name of each variant at the arm of it, and
  its name where a variant is unknown.
-/
def SumType.literals
    (sum : SumType) : List String :=
  [sum.name, sum.tag] ++ sum.variants.map Variant.wireName
    ++ [sum.name]

/-
  What the method of a node type quotes: where its category has a
  tag, its name where an object is empty, and the tag with the
  name of the variant that is expected.
-/
def NodeSchema.literals
    (node : NodeSchema) : List String :=
  match node.category.tag? with
  | none => []
  | some tag =>
      node.name ::
        node.variantName.toList.flatMap fun variant => [tag, variant]

/-
  What the method for attributes quotes: for each attribute its
  name at the arm, and the node with it at the hop of its value;
  the node where a key is unexpected; and for each attribute that
  is required the node with its name where it is missing.
-/
def NodeSchema.attributeLiterals
    (node : NodeSchema) : List String :=
  (node.attributes.flatMap fun f =>
      [f.wireName, node.name, f.wireName])
    ++ [node.name]
    ++ ((node.attributes.filter fun f => f.presence = .required).flatMap
      fun f => [node.name, f.wireName])

/- What a unit quotes, one category after the other. -/
def Schema.literals
    (schema : Schema) : List String :=
  Category.order.flatMap fun category =>
    (schema.sum? category).toList.flatMap SumType.literals
      ++ (schema.nodesIn category).flatMap fun node =>
        node.literals ++ node.attributeLiterals

/- A piece without the text that it quotes. -/
def Piece.blanked : Piece → Piece
  | .literal _ => .literal ""
  | piece => piece

/- A line without the texts that it quotes. -/
def Line.blanked
    (line : Line) : Line :=
  { line with pieces := line.pieces.map Piece.blanked }

------------------------------------------------------------
-- Quoted Texts of Methods
------------------------------------------------------------

theorem literals_append
    (lines others : List Line) :
    literals (lines ++ others) = literals lines ++ literals others :=
  List.flatMap_append

theorem literals_sumMethod
    (sum : SumType) :
    literals (sumMethod sum).body = sum.literals := by
  have hVariants :
      literals (sum.variants.map (variantLine sum)) =
        sum.variants.map Variant.wireName := by
    rw [literals, List.flatMap_map, List.map_eq_flatMap]
    rfl
  simp only [sumMethod, literals_append, hVariants]
  rfl

theorem literals_nodeMethod
    (node : NodeSchema) :
    literals (nodeMethod node).body = node.literals := by
  rw [nodeMethod, literals_append, literals_append, expectLines,
    NodeSchema.literals, Category.isSum]
  cases node.category.tag? with
  | none => rfl
  | some tag => cases node.variantName <;> rfl

/- A value is quoted in its hop. -/
theorem literals_valuePieces
    (node : NodeSchema)
    (f : FieldDescriptor) :
    (valuePieces node f).filterMap Piece.literal? =
      [node.name, f.wireName] := by
  unfold valuePieces
  split
  · rfl
  · dsimp only
    split <;> rfl
  · rfl

theorem literals_fillLine
    (node : NodeSchema)
    (f : FieldDescriptor) :
    (fillLine node f).literals =
      if f.presence = .required then [node.name, f.wireName]
      else [] := by
  unfold fillLine
  cases f.presence <;> rfl

theorem literals_attrsMethod
    (node : NodeSchema) :
    literals (attrsMethod node).body = node.attributeLiterals := by
  have hValue (f : FieldDescriptor) :
      Line.literals ⟨5, [.code (localName f ++ " = Some(")]
        ++ valuePieces node f ++ [.code ");"]⟩ =
        [node.name, f.wireName] := by
    rw [Line.literals, List.filterMap_append, List.filterMap_append,
      literals_valuePieces]
    rfl
  have hArm (f : FieldDescriptor) :
      Line.literals ⟨4, [.literal f.wireName, .code " => \x7b"]⟩ =
        [f.wireName] :=
    rfl
  have hNode (depth : Nat) (before after : String) :
      Line.literals ⟨depth, [.code before, .literal node.name,
        .code after]⟩ = [node.name] :=
    rfl
  have hRequired (as : List FieldDescriptor) :
      (as.flatMap fun f =>
        if f.presence = .required then [node.name, f.wireName]
        else []) =
        (as.filter fun f => f.presence = .required).flatMap
          fun f => [node.name, f.wireName] := by
    induction as with
    | nil => rfl
    | cons f as ih =>
        rw [List.flatMap_cons, ih, List.filter_cons]
        by_cases hOwn : f.presence = .required <;> simp [hOwn]
  rw [literals, flatMap_attrsMethod fun _ _ => rfl]
  simp only [hArm, hValue, hNode, literals_fillLine, hRequired]
  rw [NodeSchema.attributeLiterals]
  congr 1
  split
  · rename_i hEmpty
    rw [List.isEmpty_iff.mp hEmpty]
    rfl
  · rfl

/- The methods of a category, the sum before the node types. -/
theorem literals_methodsIn
    (schema : Schema)
    (category : Category) :
    ((DecoderUnit.methodsIn schema category).flatMap fun m =>
        literals m.body) =
      (schema.sum? category).toList.flatMap SumType.literals ++
        (schema.nodesIn category).flatMap fun node =>
          node.literals ++ node.attributeLiterals := by
  have hArrays (types : List String) :
      (types.flatMap fun type => literals (arrayMethod type).body) =
        [] :=
    List.flatMap_eq_nil_iff.mpr fun _ _ => rfl
  rw [DecoderUnit.methodsIn, List.flatMap_append, List.flatMap_append,
    List.flatMap_map, List.flatMap_map, hArrays, List.append_nil,
    ← List.flatMap_def, List.flatMap_assoc]
  simp only [literals_sumMethod, List.flatMap_cons, List.flatMap_nil,
    List.append_nil, literals_nodeMethod, literals_attrsMethod]

/- A unit quotes what its schema says. -/
theorem literals_lines
    (schema : Schema) :
    literals (DecoderUnit.ofSchema schema).lines = schema.literals := by
  have hScalars :
      ((DecoderUnit.ofSchema schema).scalarArrays.flatMap fun m =>
        literals m.body) = [] := by
    rw [List.flatMap_eq_nil_iff]
    intro m hMem
    rcases List.mem_map.mp hMem with ⟨type, _, rfl⟩
    rfl
  have hTypes (types : List String) :
      (types.flatMap fun name =>
        Line.literals ⟨2, [.code "dec.", .call (decodeName name),
          .code "()"]⟩) = [] :=
    List.flatMap_eq_nil_iff.mpr fun _ _ => rfl
  have hBodies :
      (DecoderUnit.ofSchema schema).methods.flatMap (fun m =>
        literals m.body) = schema.literals := by
    rw [methods_ofSchema, List.flatMap_append, hScalars,
      List.append_nil, List.flatMap_assoc]
    simp only [literals_methodsIn]
    rfl
  rw [literals, flatMap_lines (fun _ _ => rfl) rfl, hTypes,
    List.append_nil]
  exact hBodies

------------------------------------------------------------
-- Units without Names
------------------------------------------------------------

/- A method without the texts that it quotes. -/
def Method.blanked
    (m : Method) : Method :=
  { m with body := m.body.map Line.blanked }

/- A section without the texts that it quotes. -/
def UnitSection.blanked
    (s : UnitSection) : UnitSection :=
  { s with methods := s.methods.map Method.blanked }

/- A unit without the texts that it quotes. -/
def DecoderUnit.blanked
    (u : DecoderUnit) : DecoderUnit :=
  { u with
    sections := u.sections.map UnitSection.blanked
    scalarArrays := u.scalarArrays.map Method.blanked }

theorem methodLines_blanked
    (ms : List Method) :
    DecoderUnit.methodLines (ms.map Method.blanked) =
      (DecoderUnit.methodLines ms).map Line.blanked := by
  rw [methodLines_eq_flatMap, methodLines_eq_flatMap,
    List.flatMap_map, List.map_flatMap]
  congr 1
  funext m
  rw [Method.lines, Method.lines, List.map_cons, List.map_append,
    List.map_cons]
  rfl

theorem sectionsLines_blanked
    (sections : List UnitSection) :
    DecoderUnit.sectionsLines (sections.map UnitSection.blanked) =
      (DecoderUnit.sectionsLines sections).map Line.blanked := by
  have hSection (s : UnitSection) :
      DecoderUnit.sectionLines s.blanked =
        (DecoderUnit.sectionLines s).map Line.blanked :=
    congrArg (_ :: ·) (methodLines_blanked s.methods)
  fun_induction DecoderUnit.sectionsLines sections with
  | case1 => rfl
  | case2 s => exact hSection s
  | case3 s rest hRest ih =>
      rw [List.map_append, List.map_cons, List.map_cons, ← ih,
        ← hSection]
      cases rest with
      | nil => exact absurd rfl hRest
      | cons other rest => rfl

/- The lines of a unit are blanked where its methods are. -/
theorem lines_blanked
    (u : DecoderUnit) :
    u.blanked.lines = u.lines.map Line.blanked := by
  have hTypes (types : List String) :
      (types.map fun name => Line.plain 1 (name ++ ",")).map
          Line.blanked =
        types.map fun name => Line.plain 1 (name ++ ",") :=
    List.map_map
  have hImpls (types : List String) :
      ((types.map DecoderUnit.implLines).flatten).map Line.blanked =
        (types.map DecoderUnit.implLines).flatten := by
    rw [← List.flatMap_def, List.map_flatMap]
    rfl
  simp only [DecoderUnit.lines, DecoderUnit.headerLines,
    DecoderUnit.blanked, sectionsLines_blanked, methodLines_blanked,
    List.map_append, hTypes, hImpls]
  rfl

theorem sumMethod_unnamed
    (sum : SumType) :
    (sumMethod sum.unnamed).blanked = (sumMethod sum).blanked := by
  have hVariants :
      (sum.unnamed.variants.map (variantLine sum.unnamed)).map
          Line.blanked =
        (sum.variants.map (variantLine sum)).map Line.blanked := by
    rw [SumType.unnamed, List.map_map, List.map_map, List.map_map]
    rfl
  simp only [Method.blanked, sumMethod, List.map_append, hVariants]
  rfl

theorem nodeMethod_unnamed
    (node : NodeSchema) :
    (nodeMethod node.unnamed).blanked = (nodeMethod node).blanked := by
  have hExpect :
      (expectLines node.unnamed).map Line.blanked =
        (expectLines node).map Line.blanked := by
    rcases node with ⟨name, category, variantName, fields, skipped⟩
    cases category <;> cases variantName <;> rfl
  simp only [Method.blanked, nodeMethod, List.map_append, hExpect]
  rfl

/- The same attributes without their names. -/
theorem attributes_unnamed
    (node : NodeSchema) :
    node.unnamed.attributes =
      node.attributes.map FieldDescriptor.unnamed := by
  rw [NodeSchema.attributes, NodeSchema.unnamed, List.filter_map]
  rfl

theorem attrsMethod_unnamed
    (node : NodeSchema) :
    (attrsMethod node.unnamed).blanked =
      (attrsMethod node).blanked := by
  have hScalar : node.unnamed.hasScalar = node.hasScalar := by
    rw [NodeSchema.hasScalar, attributes_unnamed, List.any_map]
    rfl
  have hValue (f : FieldDescriptor) :
      (valuePieces node.unnamed f.unnamed).map Piece.blanked =
        (valuePieces node f).map Piece.blanked := by
    rcases f with ⟨name, wireName, kind, boxed, presence, _⟩
    cases kind with
    | scalar type => rfl
    | nested target => cases boxed <;> rfl
    | nestedArray elem => rfl
  have hArm (f : FieldDescriptor) :
      (attributeLines node.unnamed f.unnamed).map Line.blanked =
        (attributeLines node f).map Line.blanked := by
    have hLine :
        Line.blanked ⟨5, [.code (localName f ++ " = Some(")]
            ++ valuePieces node.unnamed f.unnamed
            ++ [.code ");"]⟩ =
          Line.blanked ⟨5, [.code (localName f ++ " = Some(")]
            ++ valuePieces node f ++ [.code ");"]⟩ := by
      rw [Line.blanked, Line.blanked, List.map_append,
        List.map_append, hValue, List.map_append, List.map_append]
    rw [attributeLines, attributeLines, hScalar]
    simp only [List.map_append, List.map_cons, List.map_nil]
    exact congrArg (fun line => _ ++ [line, _]) hLine
  have hFill (f : FieldDescriptor) :
      (fillLine node.unnamed f.unnamed).blanked =
        (fillLine node f).blanked := by
    rcases f with ⟨name, wireName, kind, boxed, presence, _⟩
    cases presence <;> rfl
  have hRead :
      (readLines node.unnamed).map Line.blanked =
        (readLines node).map Line.blanked := by
    rw [readLines, readLines, attributes_unnamed, hScalar,
      List.isEmpty_map]
    split
    · rfl
    · simp only [List.map_append, List.map_map, List.map_flatten,
        Function.comp_def, hArm]
      rfl
  simp only [Method.blanked, attrsMethod, List.map_append, hRead,
    attributes_unnamed, List.map_map, Function.comp_def, hFill]
  rfl

------------------------------------------------------------
-- Units of Schemas
------------------------------------------------------------

theorem sum?_unnamed
    (schema : Schema)
    (category : Category) :
    schema.unnamed.sum? category =
      (schema.sum? category).map SumType.unnamed := by
  rw [Schema.sum?, Schema.unnamed, List.find?_map]
  rfl

theorem nodesIn_unnamed
    (schema : Schema)
    (category : Category) :
    schema.unnamed.nodesIn category =
      (schema.nodesIn category).map NodeSchema.unnamed := by
  rw [Schema.nodesIn, Schema.unnamed, List.filter_map]
  rfl

/- The same sequences and the same types. -/
theorem elements_unnamed
    (schema : Schema) :
    DecoderUnit.elements schema.unnamed =
      DecoderUnit.elements schema := by
  rw [DecoderUnit.elements, DecoderUnit.elements, Schema.unnamed,
    List.filterMap_flatten, List.filterMap_flatten, List.map_map,
    List.map_map, List.map_map]
  congr 1
  apply List.map_congr_left
  intro node _
  exact List.filterMap_map

theorem typesIn_unnamed
    (schema : Schema)
    (category : Category) :
    DecoderUnit.typesIn schema.unnamed category =
      DecoderUnit.typesIn schema category := by
  rw [DecoderUnit.typesIn, DecoderUnit.typesIn, sum?_unnamed,
    nodesIn_unnamed, List.map_map]
  cases schema.sum? category <;> rfl

theorem methodsIn_unnamed
    (schema : Schema)
    (category : Category) :
    (DecoderUnit.methodsIn schema.unnamed category).map
        Method.blanked =
      (DecoderUnit.methodsIn schema category).map Method.blanked := by
  have hSum :
      ((schema.unnamed.sum? category).toList.map sumMethod).map
          Method.blanked =
        ((schema.sum? category).toList.map sumMethod).map
          Method.blanked := by
    rw [sum?_unnamed]
    cases schema.sum? category with
    | none => rfl
    | some sum => exact congrArg ([·]) (sumMethod_unnamed sum)
  have hNodes :
      ((schema.unnamed.nodesIn category).map fun n =>
          [nodeMethod n, attrsMethod n]).flatten.map Method.blanked =
        ((schema.nodesIn category).map fun n =>
          [nodeMethod n, attrsMethod n]).flatten.map
            Method.blanked := by
    rw [nodesIn_unnamed, List.map_flatten, List.map_flatten,
      List.map_map, List.map_map, List.map_map]
    simp only [Function.comp_def, List.map_cons, List.map_nil,
      nodeMethod_unnamed, attrsMethod_unnamed]
  simp only [DecoderUnit.methodsIn, List.map_append, hSum, hNodes,
    typesIn_unnamed, elements_unnamed]

theorem sectionOf?_unnamed
    (schema : Schema)
    (category : Category) :
    (DecoderUnit.sectionOf? schema.unnamed category).map
        UnitSection.blanked =
      (DecoderUnit.sectionOf? schema category).map
        UnitSection.blanked := by
  rw [DecoderUnit.sectionOf?, DecoderUnit.sectionOf?, typesIn_unnamed]
  split
  · rfl
  · exact congrArg
      (fun methods => some (UnitSection.mk category.label methods))
      (methodsIn_unnamed schema category)

theorem ofSchema_unnamed
    (schema : Schema) :
    (DecoderUnit.ofSchema schema.unnamed).blanked =
      (DecoderUnit.ofSchema schema).blanked := by
  have hTypes :
      DecoderUnit.typesIn schema.unnamed =
        DecoderUnit.typesIn schema :=
    funext (typesIn_unnamed schema)
  rw [DecoderUnit.ofSchema, DecoderUnit.ofSchema,
    DecoderUnit.blanked, DecoderUnit.blanked, List.map_filterMap,
    List.map_filterMap, hTypes, elements_unnamed]
  simp only [sectionOf?_unnamed]

/-
  Apart from what they quote, the lines of a unit do not depend on
  the names in documents.
-/
theorem lines_ofSchema_unnamed
    (schema : Schema) :
    (DecoderUnit.ofSchema schema).lines.map Line.blanked =
      (DecoderUnit.ofSchema schema.unnamed).lines.map Line.blanked := by
  rw [← lines_blanked, ← lines_blanked, ofSchema_unnamed]

end TreeWire
