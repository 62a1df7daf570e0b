import Mathlib.Data.List.Perm.Basic
import TreeWire.Proofs.Schema.Conservation

/-
  Units are closed under calls.

  What the methods of a unit call follows from the targets of
  fields and from what variants carry.  A consistent schema
  declares all of these, so the unit defines the methods that are
  called, each in the section of its category.  Every type has a
  method of its own, in the order of the unit's types, and a
  sequence has a method exactly if an attribute holds it.

  Key definitions include:
    * `calls`
    * `elemMethod`
    * `Schema.HasElement`
    * `Method.isOwn`

  Main statements:
    * `flatMap_lines`
    * `calls_lines`
    * `filter_isOwn_methods`
    * `types_perm`
    * `Schema.Consistent.elemMethod_mem_methods_iff`
    * `Schema.Consistent.calls_defined`
-/

namespace TreeWire

open Declaration

------------------------------------------------------------
-- Calls
------------------------------------------------------------

/- The method that a piece calls, if it calls one. -/
def Piece.called? : Piece → Option String
  | .call method => some method
  | _ => none

/- The methods that lines call, in their order. -/
def calls
    (lines : List Line) : List String :=
  lines.flatMap fun line => line.pieces.filterMap Piece.called?

/- The method for sequences of an element type. -/
def elemMethod : ElemType → Method
  | .scalar type => scalarArrayMethod type
  | .node name => arrayMethod name

/- Whether some attribute holds a sequence of an element type. -/
def Schema.HasElement
    (schema : Schema)
    (elem : ElemType) : Prop :=
  ∃ node ∈ schema.nodes, ∃ f ∈ node.attributes,
    f.kind = .nestedArray elem

------------------------------------------------------------
-- Lines of a Unit
------------------------------------------------------------

theorem calls_append
    (lines others : List Line) :
    calls (lines ++ others) = calls lines ++ calls others :=
  List.flatMap_append

theorem methodLines_eq_flatMap
    (ms : List Method) :
    DecoderUnit.methodLines ms =
      ms.flatMap fun m => .blank :: m.lines :=
  List.flatMap_def.symm

section Readings

variable {α : Type} {read : Line → List α}

theorem flatMap_map_plain
    {β : Type}
    (hPlain : ∀ depth text, read (.plain depth text) = [])
    (as : List β)
    (depth : Nat)
    (text : β → String) :
    (as.map fun a => .plain depth (text a)).flatMap read = [] := by
  rw [List.flatMap_map, List.flatMap_eq_nil_iff]
  exact fun a _ => hPlain depth (text a)

variable (hPlain : ∀ depth text, read (.plain depth text) = [])

include hPlain

/-
  What is read from the method for attributes: from the arms, and
  from the lines that put fields into their node.
-/
theorem flatMap_attrsMethod
    (node : NodeSchema) :
    (attrsMethod node).body.flatMap read =
      (if node.attributes.isEmpty then
        read ⟨3, [.code
            "return Err(DecodeError::unexpected_key(&key, ",
          .literal node.name, .code "));"]⟩
      else
        (node.attributes.flatMap fun f =>
          read ⟨4, [.literal f.wireName, .code " => \x7b"]⟩ ++
            read ⟨5, [.code (localName f ++ " = Some(")]
              ++ valuePieces node f ++ [.code ");"]⟩) ++
          read ⟨4, [.code
              "other => return Err(DecodeError::unexpected_key(other, ",
            .literal node.name, .code ")),"]⟩) ++
        node.attributes.flatMap fun f => read (fillLine node f) := by
  have hArm (f : FieldDescriptor) :
      (attributeLines node f).flatMap read =
        read ⟨4, [.literal f.wireName, .code " => \x7b"]⟩ ++
          read ⟨5, [.code (localName f ++ " = Some(")]
            ++ valuePieces node f ++ [.code ");"]⟩ := by
    rw [attributeLines]
    split <;>
      simp only [List.flatMap_append, List.flatMap_cons,
        List.flatMap_nil, hPlain, List.append_nil]
  have hToken :
      (if node.hasScalar then
        [Line.plain 3 "let token = self.scan.next_value()?;"]
      else []).flatMap read = [] := by
    split <;>
      simp only [List.flatMap_cons, List.flatMap_nil, hPlain,
        List.append_nil]
  simp only [attrsMethod, List.flatMap_append, List.flatMap_cons,
    List.flatMap_nil, hPlain, flatMap_map_plain hPlain,
    List.flatMap_map, List.append_nil]
  rw [readLines]
  split <;>
    simp only [List.flatMap_append, List.flatMap_cons,
      List.flatMap_nil, hPlain, flatMap_map_plain hPlain, hToken,
      ← List.flatMap_def, List.flatMap_assoc, hArm, List.nil_append,
      List.append_nil]

variable (hBlank : read .blank = [])

include hBlank

/- What is read from methods is read from their bodies. -/
theorem flatMap_methodLines
    (ms : List Method) :
    (DecoderUnit.methodLines ms).flatMap read =
      ms.flatMap fun m => m.body.flatMap read := by
  rw [methodLines_eq_flatMap, List.flatMap_assoc]
  congr 1
  funext m
  simp only [Method.lines, List.cons_append, List.flatMap_cons,
    List.flatMap_append, List.flatMap_nil, hPlain, hBlank,
    List.nil_append, List.append_nil]

theorem flatMap_sectionsLines
    (sections : List UnitSection) :
    (DecoderUnit.sectionsLines sections).flatMap read =
      (sections.map UnitSection.methods).flatten.flatMap fun m =>
        m.body.flatMap read := by
  have hSection (s : UnitSection) :
      (DecoderUnit.sectionLines s).flatMap read =
        s.methods.flatMap fun m => m.body.flatMap read := by
    rw [DecoderUnit.sectionLines, List.flatMap_cons, hPlain,
      List.nil_append, flatMap_methodLines hPlain hBlank]
  fun_induction DecoderUnit.sectionsLines sections with
  | case1 => rfl
  | case2 s =>
      rw [hSection]
      simp
  | case3 s rest _ ih =>
      rw [List.flatMap_append, hSection, List.flatMap_cons, hBlank, ih,
        List.map_cons, List.flatten_cons, List.flatMap_append]
      rfl

/-
  What is read from a unit, if nothing is read from plain lines: it
  stands in the bodies of methods and where types are tied to them.
-/
theorem flatMap_lines
    (u : DecoderUnit) :
    u.lines.flatMap read =
      (u.methods.flatMap fun m => m.body.flatMap read) ++
        u.types.flatMap fun name =>
          read ⟨2, [.code "dec.", .call (decodeName name),
            .code "()"]⟩ := by
  have hImpl (name : String) :
      (DecoderUnit.implLines name).flatMap read =
        read ⟨2, [.code "dec.", .call (decodeName name),
          .code "()"]⟩ := by
    simp only [DecoderUnit.implLines, List.flatMap_cons,
      List.flatMap_nil, hPlain, hBlank, List.nil_append,
      List.append_nil]
  simp only [DecoderUnit.lines, DecoderUnit.headerLines,
    DecoderUnit.methods, List.flatMap_append, List.flatMap_cons,
    List.flatMap_nil, hPlain, hBlank, flatMap_map_plain hPlain,
    flatMap_sectionsLines hPlain hBlank,
    flatMap_methodLines hPlain hBlank, ← List.flatMap_def,
    List.flatMap_assoc, hImpl, List.nil_append, List.append_nil]

end Readings

/- A unit calls what its methods call, and the method of each type. -/
theorem calls_lines
    (u : DecoderUnit) :
    calls u.lines =
      (u.methods.flatMap fun m => calls m.body) ++
        u.types.map decodeName := by
  rw [calls, flatMap_lines (fun _ _ => rfl) rfl, List.map_eq_flatMap]
  rfl

theorem infix_methodLines
    {m : Method}
    {ms : List Method}
    (h : m ∈ ms) :
    m.lines <:+: DecoderUnit.methodLines ms := by
  rw [methodLines_eq_flatMap]
  rcases List.append_of_mem h with ⟨before, after, rfl⟩
  refine ⟨before.flatMap (fun m => .blank :: m.lines) ++ [.blank],
    after.flatMap (fun m => .blank :: m.lines), ?_⟩
  simp

theorem infix_sectionsLines
    {s : UnitSection}
    {sections : List UnitSection}
    (h : s ∈ sections) :
    DecoderUnit.methodLines s.methods <:+:
      DecoderUnit.sectionsLines sections := by
  have hSection (s : UnitSection) :
      DecoderUnit.methodLines s.methods <:+:
        DecoderUnit.sectionLines s :=
    (List.suffix_cons _ _).isInfix
  fun_induction DecoderUnit.sectionsLines sections with
  | case1 => cases h
  | case2 first =>
      rw [List.mem_singleton.mp h]
      exact hSection first
  | case3 first rest _ ih =>
      rcases List.mem_cons.mp h with rfl | hRest
      · exact (hSection s).trans (List.prefix_append _ _).isInfix
      · apply (ih hRest).trans
        exact ((List.suffix_cons _ _).trans
          (List.suffix_append _ _)).isInfix

/- Every method of a unit is written out. -/
theorem infix_lines
    {u : DecoderUnit}
    {m : Method}
    (h : m ∈ u.methods) :
    m.lines <:+: u.lines := by
  have hSections :
      DecoderUnit.sectionsLines u.sections <:+: u.lines := by
    simp only [DecoderUnit.lines, List.append_assoc]
    exact (List.infix_append' _ _ _).trans
      (List.suffix_append _ _).isInfix
  have hScalars :
      DecoderUnit.methodLines u.scalarArrays <:+: u.lines := by
    rw [DecoderUnit.lines, List.append_assoc, List.append_assoc]
    exact List.infix_append' _ _ _
  rw [DecoderUnit.methods, List.mem_append, List.mem_flatten] at h
  rcases h with ⟨ms, hSection, hMem⟩ | hScalar
  · rcases List.mem_map.mp hSection with ⟨s, hS, rfl⟩
    exact (infix_methodLines hMem).trans
      ((infix_sectionsLines hS).trans hSections)
  · exact (infix_methodLines hScalar).trans hScalars

------------------------------------------------------------
-- Methods of a Unit
------------------------------------------------------------

/- The methods of a unit, one category after the other. -/
theorem methods_ofSchema
    (schema : Schema) :
    (DecoderUnit.ofSchema schema).methods =
      Category.order.flatMap (DecoderUnit.methodsIn schema) ++
        (DecoderUnit.ofSchema schema).scalarArrays := by
  have hSection (category : Category) :
      (((DecoderUnit.sectionOf? schema category).map
        UnitSection.methods).toList).flatten =
          DecoderUnit.methodsIn schema category := by
    rw [DecoderUnit.sectionOf?]
    split
    · rename_i hEmpty
      have hTypes := List.isEmpty_iff.mp hEmpty
      rw [DecoderUnit.methodsIn, hTypes]
      rw [DecoderUnit.typesIn, List.append_eq_nil_iff,
        List.map_eq_nil_iff, List.map_eq_nil_iff] at hTypes
      rw [hTypes.1, hTypes.2]
      rfl
    · exact List.flatten_singleton
  rw [DecoderUnit.methods, DecoderUnit.ofSchema, List.map_filterMap,
    List.filterMap_eq_flatMap_toList, ← List.flatMap_id,
    List.flatMap_assoc]
  simp only [List.flatMap_id, hSection]

/- The kinds of methods in a unit. -/
theorem mem_methods_iff
    {schema : Schema}
    {m : Method} :
    m ∈ (DecoderUnit.ofSchema schema).methods ↔
      (∃ category, ∃ sum ∈ schema.sum? category, m = sumMethod sum) ∨
      (∃ node ∈ schema.nodes,
        m = nodeMethod node ∨ m = attrsMethod node) ∨
      (∃ category, ∃ type ∈ DecoderUnit.typesIn schema category,
        .node type ∈ DecoderUnit.elements schema ∧
          m = arrayMethod type) ∨
      ∃ type, .scalar type ∈ DecoderUnit.elements schema ∧
        m = scalarArrayMethod type := by
  have hOrder (category : Category) : category ∈ Category.order := by
    cases category <;> decide
  have hAll (type : ScalarType) : type ∈ ScalarType.all := by
    cases type <;> decide
  rw [methods_ofSchema, List.mem_append, List.mem_flatMap]
  simp only [DecoderUnit.methodsIn, List.mem_append, List.mem_map,
    List.mem_flatten, List.mem_filter, Option.mem_toList,
    DecoderUnit.ofSchema, hOrder, hAll, true_and, List.contains_iff_mem,
    Schema.nodesIn, decide_eq_true_eq]
  constructor
  · rintro (⟨category,
      (⟨sum, hSum, rfl⟩ | ⟨_, ⟨node, hNode, rfl⟩, hM⟩) |
      ⟨type, hType, rfl⟩⟩ | ⟨type, hType, rfl⟩)
    · exact .inl ⟨category, sum, hSum, rfl⟩
    · refine .inr (.inl ⟨node, hNode.1, ?_⟩)
      simpa using hM
    · exact .inr (.inr (.inl ⟨category, type, hType.1, hType.2, rfl⟩))
    · exact .inr (.inr (.inr ⟨type, hType, rfl⟩))
  · rintro (⟨category, sum, hSum, rfl⟩ | ⟨node, hNode, hM⟩ |
      ⟨category, type, hType, hElem, rfl⟩ | ⟨type, hElem, rfl⟩)
    · exact .inl ⟨category, .inl (.inl ⟨sum, hSum, rfl⟩)⟩
    · refine .inl ⟨node.category, .inl (.inr
        ⟨_, ⟨node, ⟨hNode, rfl⟩, rfl⟩, ?_⟩)⟩
      simpa using hM
    · exact .inl ⟨category, .inr ⟨type, ⟨hType, hElem⟩, rfl⟩⟩
    · exact .inr ⟨type, hElem, rfl⟩

------------------------------------------------------------
-- Definitions of Types
------------------------------------------------------------

theorem toList_decodeName
    (type : String) :
    (decodeName type).toList =
      "decode_".toList ++ SnakeCase.convert none type.toList :=
  String.toList_append.trans
    (congrArg ("decode_".toList ++ ·) String.toList_ofList)

/- The last character of a name stays if it is no capital letter. -/
theorem getLast?_convert
    {c : Char}
    (hSmall : isCapital c = false)
    (previous : Option Char)
    (cs : List Char) :
    (SnakeCase.convert previous (cs ++ [c])).getLast? = some c := by
  induction cs generalizing previous with
  | nil => simp [SnakeCase.convert, hSmall]
  | cons first cs ih =>
      have hTail := ih (some first)
      rw [List.cons_append, SnakeCase.convert]
      split
      · split <;> simp [List.getLast?_append, List.getLast?_cons, hTail]
      · simp [List.getLast?_cons, hTail]

/- The method for attributes is not the method of its own type. -/
theorem attrsName_ne_decodeName
    (type : String) :
    attrsName type ≠ decodeName type := by
  intro h
  have hLength := congrArg String.length h
  rw [attrsName, String.length_append] at hLength
  have hSuffix : "_attrs".length = 6 := rfl
  omega

/- The method for a sequence is not the method of its own type. -/
theorem arrayName_ne_decodeName
    (type : String) :
    arrayName type ≠ decodeName ("Vec<" ++ type ++ ">") := by
  intro h
  have hVec :
      (decodeName ("Vec<" ++ type ++ ">")).toList.getLast? =
        some '>' := by
    have hChars :
        ("Vec<" ++ type ++ ">").toList =
          ("Vec<" ++ type).toList ++ ['>'] :=
      String.toList_append
    rw [toList_decodeName, hChars, List.getLast?_append,
      getLast?_convert (by decide)]
    rfl
  have hArray : (arrayName type).toList.getLast? = some 'y' := by
    rw [arrayName, String.toList_append, List.getLast?_append]
    rfl
  rw [h, hVec] at hArray
  cases hArray

/- Whether a method is the one that decodes what it returns. -/
abbrev Method.isOwn
    (m : Method) : Bool :=
  m.name = decodeName m.result

theorem filter_isOwn_methodsIn
    (schema : Schema)
    (category : Category) :
    ((DecoderUnit.methodsIn schema category).filter
        Method.isOwn).map Method.result =
      DecoderUnit.typesIn schema category := by
  have hNodes (nodes : List NodeSchema) :
      ((nodes.map fun n =>
          [nodeMethod n, attrsMethod n]).flatten.filter
        Method.isOwn).map Method.result =
        nodes.map NodeSchema.name := by
    induction nodes with
    | nil => rfl
    | cons n nodes ih =>
        have hAttrs : ¬ (attrsMethod n).isOwn = true := by
          rw [decide_eq_true_eq]
          exact attrsName_ne_decodeName n.name
        rw [List.map_cons, List.flatten_cons, List.filter_append,
          List.map_append, ih, List.filter_cons_of_pos (by simp; rfl),
          List.filter_cons_of_neg hAttrs]
        rfl
  have hSums (sums : List SumType) :
      ((sums.map sumMethod).filter Method.isOwn).map Method.result =
        sums.map SumType.name := by
    rw [List.filter_eq_self.mpr, List.map_map]
    · rfl
    · intro m hMem
      rcases List.mem_map.mp hMem with ⟨sum, _, rfl⟩
      exact decide_eq_true rfl
  have hArrays (types : List String) :
      (types.map arrayMethod).filter Method.isOwn = [] := by
    rw [List.filter_eq_nil_iff]
    intro m hMem
    rcases List.mem_map.mp hMem with ⟨type, _, rfl⟩
    rw [decide_eq_true_eq]
    exact arrayName_ne_decodeName type
  rw [DecoderUnit.methodsIn, List.filter_append, List.filter_append,
    List.map_append, List.map_append, hSums, hNodes, hArrays]
  exact List.append_nil _

/- Each type has a definition of its own, in the order of types. -/
theorem filter_isOwn_methods
    (schema : Schema) :
    ((DecoderUnit.ofSchema schema).methods.filter
        Method.isOwn).map Method.result =
      (DecoderUnit.ofSchema schema).types := by
  have hScalars :
      (DecoderUnit.ofSchema schema).scalarArrays.filter
        Method.isOwn = [] := by
    rw [List.filter_eq_nil_iff]
    intro m hMem
    rcases List.mem_map.mp hMem with ⟨type, _, rfl⟩
    rw [decide_eq_true_eq]
    cases type <;> decide
  rw [methods_ofSchema, List.filter_append, hScalars, List.append_nil,
    List.filter_flatMap, List.map_flatMap]
  simp only [filter_isOwn_methodsIn]
  exact List.flatMap_def

/- The elements of a list, one category after the other. -/
theorem flatMap_order_perm
    {α : Type}
    (category : α → Category)
    (as : List α) :
    (Category.order.flatMap fun c =>
      as.filter fun a => category a = c).Perm as := by
  induction as with
  | nil => exact .nil
  | cons a as ih =>
      refine .trans ?_ (ih.cons a)
      simp only [Category.order, List.flatMap_cons, List.flatMap_nil,
        List.append_nil, List.filter_cons]
      cases category a with
      | expression => exact .refl _
      | statement => exact List.perm_middle
      | other =>
          simp only [reduceCtorEq, decide_false, decide_true,
            if_true, Bool.false_eq_true, if_false]
          rw [← List.append_assoc, ← List.append_assoc]
          exact List.perm_middle

/- Where keys are different, those of a key are the one found. -/
theorem toList_find?_key
    {α κ : Type}
    [DecidableEq κ]
    {key : α → κ}
    {as : List α}
    (hNodup : (as.map key).Nodup)
    (k : κ) :
    (as.find? fun a => key a = k).toList =
      as.filter fun a => key a = k := by
  induction as with
  | nil => rfl
  | cons a as ih =>
      rw [List.map_cons, List.nodup_cons] at hNodup
      by_cases hKey : key a = k
      · have hOthers : as.filter (fun b => key b = k) = [] := by
          rw [List.filter_eq_nil_iff]
          intro b hMem hSame
          rw [decide_eq_true_eq] at hSame
          exact hNodup.1 (List.mem_map.mpr
            ⟨b, hMem, hSame.trans hKey.symm⟩)
        rw [List.filter_cons_of_pos (by simpa using hKey), hOthers,
          List.find?_cons_of_pos (by simpa using hKey)]
        rfl
      · rw [List.find?_cons_of_neg (by simpa using hKey),
          List.filter_cons_of_neg (by simpa using hKey)]
        exact ih hNodup.2

/- The types of a unit are the sums and the nodes of its schema. -/
theorem types_perm
    {schema : Schema}
    (hCategories : (schema.sums.map SumType.category).Nodup) :
    (DecoderUnit.ofSchema schema).types.Perm
      (schema.sums.map SumType.name ++
        schema.nodes.map NodeSchema.name) := by
  have hSums :
      (Category.order.flatMap fun c =>
        (schema.sum? c).toList.map SumType.name).Perm
          (schema.sums.map SumType.name) := by
    simp only [Schema.sum?, toList_find?_key hCategories]
    rw [← List.map_flatMap]
    exact (flatMap_order_perm SumType.category schema.sums).map _
  have hNodes :
      (Category.order.flatMap fun c =>
        (schema.nodesIn c).map NodeSchema.name).Perm
          (schema.nodes.map NodeSchema.name) := by
    rw [← List.map_flatMap]
    exact (flatMap_order_perm NodeSchema.category schema.nodes).map _
  have hTypes :
      (DecoderUnit.ofSchema schema).types =
        Category.order.flatMap (DecoderUnit.typesIn schema) :=
    List.flatMap_def.symm
  rw [hTypes]
  exact (List.flatMap_append_perm _ _ _).symm.trans
    (hSums.append hNodes)

------------------------------------------------------------
-- Methods for Sequences
------------------------------------------------------------

theorem mem_elements_iff
    {schema : Schema}
    {elem : ElemType} :
    elem ∈ DecoderUnit.elements schema ↔
      ∃ node ∈ schema.nodes, ∃ f ∈ node.fields,
        f.kind = .nestedArray elem := by
  simp only [DecoderUnit.elements, List.mem_filterMap,
    List.mem_flatten, List.mem_map]
  constructor
  · rintro ⟨f, ⟨_, ⟨node, hNode, rfl⟩, hField⟩, hElem⟩
    refine ⟨node, hNode, f, hField, ?_⟩
    split at hElem
    · rename_i hKind
      cases hElem
      exact hKind
    · cases hElem
  · rintro ⟨node, hNode, f, hField, hKind⟩
    refine ⟨f, ⟨_, ⟨node, hNode, rfl⟩, hField⟩, ?_⟩
    rw [hKind]

/- A method for sequences has the body of one. -/
theorem elemMethod_body
    (elem : ElemType) :
    (elemMethod elem).body.head? =
      some (.plain 2 "self.assert_new_array()?;") := by
  cases elem <;> rfl

/- The method for a sequence is named for its elements. -/
theorem elemMethod_name
    (elem : ElemType) :
    (elemMethod elem).name = elemArrayName elem := by
  cases elem <;> rfl

theorem elemMethod_ne_sumMethod
    (elem : ElemType)
    (sum : SumType) :
    elemMethod elem ≠ sumMethod sum := by
  intro h
  have hBody := elemMethod_body elem
  rw [h] at hBody
  exact absurd hBody (by simp [sumMethod, openObject, Line.plain])

theorem elemMethod_ne_nodeMethod
    (elem : ElemType)
    (node : NodeSchema) :
    elemMethod elem ≠ nodeMethod node := by
  intro h
  have hBody := elemMethod_body elem
  rw [h] at hBody
  exact absurd hBody (by simp [nodeMethod, openObject, Line.plain])

/- The method for attributes is no method for a sequence. -/
theorem attrsName_ne_elemArrayName
    (type : String)
    (elem : ElemType) :
    attrsName type ≠ elemArrayName elem := by
  intro h
  have hAttrs : (attrsName type).toList.getLast? = some 's' := by
    rw [attrsName, String.toList_append, List.getLast?_append]
    rfl
  have hArray : (elemArrayName elem).toList.getLast? = some 'y' := by
    cases elem with
    | scalar type => cases type <;> decide
    | node name =>
        rw [elemArrayName, arrayName, String.toList_append,
          List.getLast?_append]
        rfl
  rw [← h, hAttrs] at hArray
  cases hArray

theorem elemMethod_ne_attrsMethod
    (elem : ElemType)
    (node : NodeSchema) :
    elemMethod elem ≠ attrsMethod node := by
  intro h
  have hName := congrArg Method.name h
  rw [elemMethod_name] at hName
  exact attrsName_ne_elemArrayName node.name elem hName.symm

theorem elemMethod_injective
    {elem other : ElemType}
    (h : elemMethod elem = elemMethod other) :
    elem = other := by
  have hResult := congrArg Method.result h
  have hBody := congrArg Method.body h
  cases elem with
  | scalar type =>
      cases other with
      | scalar type' =>
          revert hResult
          cases type <;> cases type' <;> decide
      | node name =>
          simp [elemMethod, scalarArrayMethod, arrayMethod,
            arrayLines] at hBody
  | node name =>
      cases other with
      | scalar type =>
          simp [elemMethod, scalarArrayMethod, arrayMethod,
            arrayLines] at hBody
      | node name' =>
          have hChars := congrArg String.toList hResult
          simp only [elemMethod, arrayMethod, String.toList_append,
            List.append_left_inj, List.append_right_inj] at hChars
          rw [String.toList_injective hChars]

------------------------------------------------------------
-- Calls of Methods
------------------------------------------------------------

/- A sum calls the methods for what its variants carry. -/
theorem calls_sumMethod
    (sum : SumType) :
    calls (sumMethod sum).body =
      sum.variants.map fun v => attrsName v.node := by
  have hVariants :
      calls (sum.variants.map (variantLine sum)) =
        sum.variants.map fun v => attrsName v.node := by
    rw [calls, List.flatMap_map, List.map_eq_flatMap]
    rfl
  simp only [sumMethod, calls_append, hVariants]
  exact List.append_nil _

/- A node calls the method for its own attributes. -/
theorem calls_nodeMethod
    (node : NodeSchema) :
    calls (nodeMethod node).body = [attrsName node.name] := by
  have hExpect : calls (expectLines node) = [] := by
    unfold expectLines
    split <;> rfl
  have hOpen :
      calls (openObject (if node.category.isSum then
          emptyError node.name
        else
          [.code ("Ok(" ++ node.name ++ "::default())")])) = [] := by
    split <;> rfl
  simp only [nodeMethod, calls_append, hOpen, hExpect]
  rfl

/- What reads the attributes of a node calls what their values do. -/
theorem calls_attrsMethod
    (node : NodeSchema) :
    calls (attrsMethod node).body =
      node.attributes.flatMap fun f =>
        (valuePieces node f).filterMap Piece.called? := by
  have hFill (f : FieldDescriptor) :
      (fillLine node f).pieces.filterMap Piece.called? = [] := by
    unfold fillLine
    split <;> rfl
  have hValue (f : FieldDescriptor) :
      ([Piece.code (localName f ++ " = Some(")] ++ valuePieces node f
        ++ [Piece.code ");"]).filterMap Piece.called? =
        (valuePieces node f).filterMap Piece.called? := by
    rw [List.filterMap_append, List.filterMap_append]
    exact List.append_nil _
  have hArm (f : FieldDescriptor) :
      [Piece.literal f.wireName, .code " => \x7b"].filterMap
        Piece.called? = [] :=
    rfl
  have hOther (before after : String) :
      [Piece.code before, .literal node.name,
        .code after].filterMap Piece.called? = [] :=
    rfl
  have hNone (as : List FieldDescriptor) :
      (as.flatMap fun _ => ([] : List String)) = [] :=
    List.flatMap_eq_nil_iff.mpr fun _ _ => rfl
  rw [calls, flatMap_attrsMethod fun _ _ => rfl]
  simp only [hFill, hValue, hArm, hOther, hNone, List.nil_append,
    List.append_nil]
  split
  · rename_i hEmpty
    rw [List.isEmpty_iff.mp hEmpty]
    rfl
  · rfl

/- The method for a sequence of nodes calls that for a node. -/
theorem calls_arrayMethod
    (type : String) :
    calls (arrayMethod type).body = [decodeName type] :=
  rfl

theorem calls_scalarArrayMethod
    (type : ScalarType) :
    calls (scalarArrayMethod type).body = [] :=
  rfl

------------------------------------------------------------
-- Consistent Schemas
------------------------------------------------------------

namespace Schema.Consistent

variable {schema : Schema}

/- The types of the unit are those that the schema declares. -/
theorem mem_types_iff
    (h : schema.Consistent)
    {name : String} :
    name ∈ (DecoderUnit.ofSchema schema).types ↔
      schema.declares name = true := by
  rw [(types_perm h.categories).mem_iff, List.mem_append, declares,
    Bool.or_eq_true, node?, isSum, List.find?_isSome, List.any_eq_true]
  simp only [List.mem_map, decide_eq_true_eq]
  exact or_comm

/- A type of the unit has a method that gives it. -/
theorem exists_decoder
    {type : String}
    (hType : type ∈ (DecoderUnit.ofSchema schema).types) :
    ∃ m ∈ (DecoderUnit.ofSchema schema).methods,
      m.name = decodeName type ∧ m.result = type := by
  rw [← filter_isOwn_methods, List.mem_map] at hType
  rcases hType with ⟨m, hMem, rfl⟩
  rw [List.mem_filter, decide_eq_true_eq] at hMem
  exact ⟨m, hMem.1, hMem.2, rfl⟩

/- A type of the unit has a definition. -/
theorem decodeName_defined
    {type : String}
    (hType : type ∈ (DecoderUnit.ofSchema schema).types) :
    ∃ m ∈ (DecoderUnit.ofSchema schema).methods,
      m.name = decodeName type :=
  (exists_decoder hType).imp fun _ h => ⟨h.1, h.2.1⟩

/- A field of a node that holds a sequence is an attribute. -/
theorem hasElement_iff
    (h : schema.Consistent)
    {elem : ElemType} :
    schema.HasElement elem ↔ elem ∈ DecoderUnit.elements schema := by
  rw [mem_elements_iff]
  constructor
  · rintro ⟨node, hNode, f, hField, hKind⟩
    exact ⟨node, hNode, f, (List.mem_filter.mp hField).1, hKind⟩
  · rintro ⟨node, hNode, f, hField, hKind⟩
    refine ⟨node, hNode, f, List.mem_filter.mpr ⟨hField, ?_⟩, hKind⟩
    rcases h.discriminants node hNode with ⟨others, hFields, hOthers⟩
    rw [hFields, List.mem_append] at hField
    rcases hField with hTag | hOther
    · rw [Category.tagFields, Option.mem_toList,
        Option.map_eq_some_iff] at hTag
      rcases hTag with ⟨tag, _, rfl⟩
      cases hKind
    · rw [(hOthers f hOther).1]
      rfl

/- What stands in a sequence is a type of the unit. -/
theorem mem_types_of_element
    (h : schema.Consistent)
    {name : String}
    (hElem : .node name ∈ DecoderUnit.elements schema) :
    name ∈ (DecoderUnit.ofSchema schema).types := by
  rcases mem_elements_iff.mp hElem with ⟨node, hNode, f, hField, hKind⟩
  rw [h.mem_types_iff]
  exact h.targets node hNode f hField name (by rw [hKind]; rfl)

/- Just the element types of sequences have methods for them. -/
theorem elemMethod_mem_methods_iff
    (h : schema.Consistent)
    {elem : ElemType} :
    elemMethod elem ∈ (DecoderUnit.ofSchema schema).methods ↔
      schema.HasElement elem := by
  rw [mem_methods_iff, h.hasElement_iff]
  constructor
  · rintro (⟨_, sum, _, hM⟩ | ⟨node, _, hM | hM⟩ |
      ⟨_, type, _, hElem, hM⟩ | ⟨type, hElem, hM⟩)
    · exact absurd hM (elemMethod_ne_sumMethod elem sum)
    · exact absurd hM (elemMethod_ne_nodeMethod elem node)
    · exact absurd hM (elemMethod_ne_attrsMethod elem node)
    · have hSame : elemMethod elem = elemMethod (.node type) := hM
      rwa [elemMethod_injective hSame]
    · have hSame : elemMethod elem = elemMethod (.scalar type) := hM
      rwa [elemMethod_injective hSame]
  · intro hElem
    cases elem with
    | scalar type => exact .inr (.inr (.inr ⟨type, hElem, rfl⟩))
    | node name =>
        rcases List.mem_flatten.mp (h.mem_types_of_element hElem) with
          ⟨_, hTypes, hMem⟩
        rcases List.mem_map.mp hTypes with ⟨category, _, rfl⟩
        exact .inr (.inr (.inl ⟨category, name, hMem, hElem, rfl⟩))

/- The methods that read values of fields are defined. -/
theorem valuePieces_defined
    (h : schema.Consistent)
    {node : NodeSchema}
    {f : FieldDescriptor}
    {name : String}
    (hNode : node ∈ schema.nodes)
    (hField : f ∈ node.attributes)
    (hCall : name ∈ (valuePieces node f).filterMap Piece.called?) :
    ∃ m ∈ (DecoderUnit.ofSchema schema).methods, m.name = name := by
  have hMem := (List.mem_filter.mp hField).1
  unfold valuePieces at hCall
  split at hCall
  · simp [hopPieces, Piece.called?] at hCall
  · rename_i target hKind
    have hName : decodeName target = name := by
      dsimp only at hCall
      split at hCall <;>
        simpa [hopPieces, Piece.called?, eq_comm] using hCall
    rw [← hName]
    apply decodeName_defined
    rw [h.mem_types_iff]
    exact h.targets node hNode f hMem target (by rw [hKind]; rfl)
  · rename_i elem hKind
    have hName : elemArrayName elem = name := by
      simpa [hopPieces, Piece.called?, eq_comm] using hCall
    rw [← hName, ← elemMethod_name]
    exact ⟨_, h.elemMethod_mem_methods_iff.mpr
      ⟨node, hNode, f, hField, hKind⟩, rfl⟩

/- Every method that the unit calls is defined in it. -/
theorem calls_defined
    (h : schema.Consistent)
    {name : String}
    (hCall : name ∈ calls (DecoderUnit.ofSchema schema).lines) :
    ∃ m ∈ (DecoderUnit.ofSchema schema).methods, m.name = name := by
  rw [calls_lines, List.mem_append, List.mem_flatMap,
    List.mem_map] at hCall
  rcases hCall with ⟨m, hMem, hCall⟩ | ⟨type, hType, rfl⟩
  · rcases mem_methods_iff.mp hMem with ⟨category, sum, hSum, rfl⟩ |
      ⟨node, hNode, rfl | rfl⟩ | ⟨category, type, hType, _, rfl⟩ |
      ⟨type, _, rfl⟩
    · rw [calls_sumMethod, List.mem_map] at hCall
      rcases hCall with ⟨v, hVariant, rfl⟩
      rcases h.carried sum (List.mem_of_find?_eq_some hSum) v hVariant
        with ⟨node, hNode, _⟩
      refine ⟨_, attrsMethod_mem_methods
        (List.mem_of_find?_eq_some hNode), ?_⟩
      have hName : node.name = v.node := by
        simpa using List.find?_some hNode
      exact congrArg attrsName hName
    · rw [calls_nodeMethod, List.mem_singleton] at hCall
      exact ⟨_, attrsMethod_mem_methods hNode, hCall.symm⟩
    · rw [calls_attrsMethod, List.mem_flatMap] at hCall
      rcases hCall with ⟨f, hField, hValue⟩
      exact h.valuePieces_defined hNode hField hValue
    · rw [calls_arrayMethod, List.mem_singleton] at hCall
      rw [hCall]
      apply decodeName_defined
      refine List.mem_flatten.mpr ⟨_, List.mem_map.mpr
        ⟨category, ?_, rfl⟩, hType⟩
      cases category <;> decide
    · rw [calls_scalarArrayMethod] at hCall
      cases hCall
  · exact decodeName_defined hType

end Schema.Consistent

end TreeWire
