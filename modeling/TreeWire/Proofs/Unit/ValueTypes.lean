import TreeWire.Proofs.Schema.FieldTypes
import TreeWire.Proofs.Unit.MethodNames

/-
  The types of values in units.

  A variable holds the value of a field as an option until its
  node is built.  What the node is then filled with has the type
  that the field is declared with, as the signatures of methods
  and the conversions of tokens say.

  Key definitions include:
    * `HasType`
    * `Line.Stores`
    * `Line.Fills`
    * `FieldDescriptor.IsGiven`
    * `NodeSchema.KeepsTypes`

  Main statements:
    * `isGiven_unique`
    * `Schema.Consistent.isGiven`
    * `field_types_kept`
-/

namespace TreeWire

open Declaration

------------------------------------------------------------
-- Types of Code
------------------------------------------------------------

/-
  The types of the values that code reads, where it may call some
  methods.  An error on the way gets a hop and returns.
-/
inductive HasType
    (methods : List Method) : List Piece → String → Prop where
  | converted
      (type : ScalarType)
      (node : NodeSchema)
      (f : FieldDescriptor) :
      HasType methods
        (.code ("token." ++ type.conversion ++ "()")
          :: hopPieces node f)
        type.typeName
  | decoded
      {m : Method}
      (h : m ∈ methods)
      (node : NodeSchema)
      (f : FieldDescriptor) :
      HasType methods
        ([.code "self.", .call m.name, .code "()"] ++ hopPieces node f)
        m.result
  | boxed
      {value : List Piece}
      {type : String}
      (h : HasType methods value type) :
      HasType methods
        ([.code "Box::new("] ++ value ++ [.code ")"])
        ("Box<" ++ type ++ ">")

/- A line that stores a value in a slot, and what is there then. -/
inductive Line.Stores
    (methods : List Method)
    (slot : String) : Line → String → Prop where
  | some
      {value : List Piece}
      {type : String}
      (depth : Nat)
      (h : HasType methods value type) :
      Stores methods slot
        ⟨depth, [.code (slot ++ " = Some(")] ++ value ++ [.code ");"]⟩
        ("Option<" ++ type ++ ">")

/-
  A line that fills a field of a literal from a slot, and the type
  of what it fills in, by the type of what is in the slot.
-/
inductive Line.Fills
    (slot field : String) :
    (held : String) → Line → (type : String) → Prop where
  | required
      (depth : Nat)
      (type node key : String) :
      Fills slot field ("Option<" ++ type ++ ">")
        ⟨depth, [.code (field ++ ": " ++ slot
            ++ ".ok_or_else(|| DecodeError::missing_field("),
          .literal node, .code ", ", .literal key, .code "))?,"]⟩
        type
  | moved
      (depth : Nat)
      (held : String) :
      Fills slot field held
        (.plain depth (field ++ ": " ++ slot ++ ",")) held
  | defaulted
      (depth : Nat)
      (type : String) :
      Fills slot field ("Option<" ++ type ++ ">")
        (.plain depth (field ++ ": " ++ slot
          ++ ".unwrap_or_default(),"))
        type

/-
  Whether the code for a field of a node gives it a value of a
  type: what the field is filled with comes from its slot, and
  that has been stored there.
-/
def FieldDescriptor.IsGiven
    (methods : List Method)
    (node : NodeSchema)
    (f : FieldDescriptor)
    (type : String) : Prop :=
  ∃ held,
    (∃ line ∈ attributeLines node f,
      line.Stores methods (localName f) held) ∧
      (fillLine node f).Fills (localName f) f.name held type

------------------------------------------------------------
-- Types Are Unique
------------------------------------------------------------

/- A conversion is neither a call of a method nor a box. -/
theorem conversion_apart
    (type : ScalarType) :
    "token." ++ type.conversion ++ "()" ≠ "self." ∧
      "token." ++ type.conversion ++ "()" ≠ "Box::new(" := by
  cases type <;> decide

theorem conversion_injective
    {type other : ScalarType}
    (h :
      "token." ++ type.conversion ++ "()" =
        "token." ++ other.conversion ++ "()") :
    type = other := by
  revert h
  cases type <;> cases other <;> decide

/-
  A value has one type, where the methods have different names.
  Its first piece says by which rule.
-/
theorem hasType_unique
    {methods : List Method}
    {value : List Piece}
    {type other : String}
    (hNames : (methods.map Method.name).Nodup)
    (h : HasType methods value type)
    (hOther : HasType methods value other) :
    type = other := by
  induction h generalizing other with
  | converted scalar node f =>
      generalize hValue :
        Piece.code ("token." ++ scalar.conversion ++ "()")
          :: hopPieces node f = value at hOther
      cases hOther with
      | converted scalar' =>
          have hCode := Piece.code.inj (List.head_eq_of_cons_eq hValue)
          rw [conversion_injective hCode]
      | decoded =>
          have hCode := Piece.code.inj (List.head_eq_of_cons_eq hValue)
          exact absurd hCode (conversion_apart scalar).1
      | boxed =>
          have hCode := Piece.code.inj (List.head_eq_of_cons_eq hValue)
          exact absurd hCode (conversion_apart scalar).2
  | decoded hMethod node f =>
      rename_i m
      generalize hValue :
        [Piece.code "self.", .call m.name, .code "()"]
          ++ hopPieces node f = value at hOther
      cases hOther with
      | converted scalar =>
          have hCode := Piece.code.inj (List.head_eq_of_cons_eq hValue)
          exact absurd hCode.symm (conversion_apart scalar).1
      | decoded hMethod' =>
          have hCall := Piece.call.inj
            (List.head_eq_of_cons_eq (List.tail_eq_of_cons_eq hValue))
          rw [List.inj_on_of_nodup_map hNames hMethod hMethod' hCall]
      | boxed =>
          have hCode := Piece.code.inj (List.head_eq_of_cons_eq hValue)
          exact absurd hCode (by decide)
  | boxed _ ih =>
      rename_i inner type _
      generalize hValue :
        [Piece.code "Box::new("] ++ inner ++ [.code ")"] = value
          at hOther
      cases hOther with
      | converted scalar =>
          have hCode := Piece.code.inj (List.head_eq_of_cons_eq hValue)
          exact absurd hCode.symm (conversion_apart scalar).2
      | decoded =>
          have hCode := Piece.code.inj (List.head_eq_of_cons_eq hValue)
          exact absurd hCode (by decide)
      | boxed hInner =>
          have hSame :=
            List.append_cancel_left (List.append_cancel_right hValue)
          rw [← hSame] at hInner
          rw [ih hInner]

/- A line with just one piece stores nothing. -/
theorem not_stores_plain
    {methods : List Method}
    {slot text held : String}
    {depth : Nat} :
    ¬ (Line.plain depth text).Stores methods slot held := by
  intro h
  generalize hLine : Line.plain depth text = line at h
  cases h with
  | some depth h =>
      have hPieces := congrArg (·.pieces.length) hLine
      simp [Line.plain] at hPieces

/- What is stored for a field is its value, as an option. -/
theorem hasType_of_stores
    {methods : List Method}
    {node : NodeSchema}
    {f : FieldDescriptor}
    {line : Line}
    {held : String}
    (hLine : line ∈ attributeLines node f)
    (h : line.Stores methods (localName f) held) :
    ∃ type,
      HasType methods (valuePieces node f) type ∧
        held = "Option<" ++ type ++ ">" := by
  rw [attributeLines, List.mem_append, List.mem_append,
    List.mem_singleton, List.mem_pair] at hLine
  rcases hLine with (hKey | hBack) | hStore | hEnd
  · cases h with
    | some depth h =>
        have hPiece :=
          List.head_eq_of_cons_eq (congrArg Line.pieces hKey)
        cases hPiece
  · split at hBack
    · rw [List.mem_singleton] at hBack
      rw [hBack] at h
      exact (not_stores_plain h).elim
    · cases hBack
  · cases h with
    | some depth h =>
        have hValue := List.append_cancel_left
          (List.append_cancel_right (congrArg Line.pieces hStore))
        rw [hValue] at h
        exact ⟨_, h, rfl⟩
  · rw [hEnd] at h
    exact (not_stores_plain h).elim

/- A field is filled with one type from a slot. -/
theorem fills_unique
    {slot field held type other : String}
    {line : Line}
    (h : line.Fills slot field held type)
    (hOther : line.Fills slot field held other) :
    type = other := by
  have hHeld
      {type other : String}
      (h : "Option<" ++ type ++ ">" = "Option<" ++ other ++ ">") :
      type = other :=
    append_left_inj.mp (append_right_inj.mp h)
  have hApart
      {depth depth' : Nat} :
      Line.plain depth (field ++ ": " ++ slot ++ ",") ≠
        .plain depth' (field ++ ": " ++ slot
          ++ ".unwrap_or_default(),") := by
    intro hLine
    have hText := Piece.code.inj
      (List.head_eq_of_cons_eq (congrArg Line.pieces hLine))
    exact absurd (append_left_inj.mp hText) (by decide)
  generalize hSame : line = line' at hOther
  generalize hSlot : held = held' at hOther
  cases h with
  | required =>
      cases hOther with
      | required => exact hHeld hSlot
      | moved => simp [Line.plain] at hSame
      | defaulted => simp [Line.plain] at hSame
  | moved =>
      cases hOther with
      | required => simp [Line.plain] at hSame
      | moved => exact hSlot
      | defaulted => exact (hApart hSame).elim
  | defaulted =>
      cases hOther with
      | required => simp [Line.plain] at hSame
      | moved => exact (hApart hSame.symm).elim
      | defaulted => exact hHeld hSlot

/- A field is given one type where methods have different names. -/
theorem isGiven_unique
    {methods : List Method}
    {node : NodeSchema}
    {f : FieldDescriptor}
    {type other : String}
    (hNames : (methods.map Method.name).Nodup)
    (h : f.IsGiven methods node type)
    (hOther : f.IsGiven methods node other) :
    type = other := by
  rcases h with ⟨_, ⟨_, hLine, hStores⟩, hFills⟩
  rcases hOther with ⟨_, ⟨_, hLine', hStores'⟩, hFills'⟩
  rcases hasType_of_stores hLine hStores with ⟨value, hValue, rfl⟩
  rcases hasType_of_stores hLine' hStores' with
    ⟨value', hValue', rfl⟩
  rw [← hasType_unique hNames hValue hValue'] at hFills'
  exact fills_unique hFills hFills'

------------------------------------------------------------
-- Types Are Given
------------------------------------------------------------

/- The method for a sequence gives a sequence of its elements. -/
theorem elemMethod_result
    (elem : ElemType) :
    (elemMethod elem).result = "Vec<" ++ elem.typeName ++ ">" := by
  cases elem <;> rfl

/- The type of an option is written around what is in it. -/
theorem typeText_classified
    (f : FieldDescriptor) :
    f.classified.typeText =
      if f.presence = .optional then
        "Option<" ++ f.classified.held.typeText ++ ">"
      else
        f.classified.held.typeText := by
  rcases f with ⟨_, _, _, _, presence, _⟩
  cases presence <;> rfl

namespace Schema.Consistent

variable {schema : Schema} {node : NodeSchema} {f : FieldDescriptor}

/- The value of a field has the type of what the field holds. -/
theorem hasType_valuePieces
    (h : schema.Consistent)
    (hNode : node ∈ schema.nodes)
    (hField : f ∈ node.attributes) :
    HasType (DecoderUnit.ofSchema schema).methods
      (valuePieces node f) f.classified.held.typeText := by
  have hMem := (List.mem_filter.mp hField).1
  have hPlain
      (hKind : ∀ name, f.kind ≠ .nested name) :
      f.boxed = false := by
    rw [← Bool.not_eq_true]
    intro hBoxed
    rcases h.boxes node hNode f hMem hBoxed with ⟨name, hName⟩
    exact hKind name hName
  unfold valuePieces
  rw [FieldDescriptor.classified, Classified.held]
  cases hKind : f.kind with
  | scalar type =>
      rw [hPlain (by rw [hKind]; exact nofun)]
      exact .converted type node f
  | nested target =>
      have hTarget :
          target ∈ (DecoderUnit.ofSchema schema).types :=
        h.mem_types_iff.mpr
          (h.targets node hNode f hMem target (by rw [hKind]; rfl))
      rcases exists_decoder hTarget with ⟨m, hMethod, hName, hResult⟩
      have hCall := HasType.decoded hMethod node f
      rw [hName, hResult] at hCall
      cases f.boxed with
      | false => exact hCall
      | true => exact .boxed hCall
  | nestedArray elem =>
      rw [hPlain (by rw [hKind]; exact nofun)]
      have hMethod :
          elemMethod elem ∈ (DecoderUnit.ofSchema schema).methods :=
        h.elemMethod_mem_methods_iff.mpr
          ⟨node, hNode, f, hField, hKind⟩
      have hCall := HasType.decoded hMethod node f
      rw [elemMethod_name, elemMethod_result] at hCall
      exact hCall

/- A field is given a value of the type that it stands for. -/
theorem isGiven
    (h : schema.Consistent)
    (hNode : node ∈ schema.nodes)
    (hField : f ∈ node.attributes) :
    f.IsGiven (DecoderUnit.ofSchema schema).methods node
      f.classified.typeText := by
  have hValue := h.hasType_valuePieces hNode hField
  refine ⟨_, ⟨_, List.mem_append_right _ List.mem_cons_self,
    .some 5 hValue⟩, ?_⟩
  have hText := typeText_classified f
  rw [fillLine]
  cases hPresence : f.presence with
  | required =>
      rw [hPresence, if_neg (by decide)] at hText
      rw [hText]
      exact .required 3 _ node.name f.wireName
  | optional =>
      rw [hPresence, if_pos rfl] at hText
      rw [hText]
      exact .moved 3 _
  | defaulted =>
      rw [hPresence, if_neg (by decide)] at hText
      rw [hText]
      exact .defaulted 3 _

end Schema.Consistent

------------------------------------------------------------
-- Units of Sources
------------------------------------------------------------

/- The names that fields may refer to are those of the schema. -/
theorem declares_extractItems
    (items : List Item) :
    (extractItems items).schema.declares =
      knownName (nodeDecls items).1 (retainedSums items).1 := by
  funext name
  have hNodes :
      ((extractItems items).schema.node? name).isSome =
        (nodeDecls items).1.any fun d => d.name = name := by
    rw [Schema.node?, extractItems_nodes, List.find?_map,
      Option.isSome_map, Bool.eq_iff_iff, List.find?_isSome,
      List.any_eq_true]
    rfl
  rw [Schema.declares, hNodes]
  rfl

/-
  A node has the types that its structure declares: an attribute
  stands for the type of a field, and is given that type by the
  code, and no other where the methods have different names.
-/
def NodeSchema.KeepsTypes
    (node : NodeSchema)
    (known : String → Bool)
    (methods : List Method)
    (decl : StructDecl) : Prop :=
  ∀ f ∈ node.attributes,
    ∃ field ∈ namedFieldsOf decl.fields,
      f.name = field.1.text ∧
        field.2.type.classify known = .ok f.classified ∧
        f.IsGiven methods node f.classified.typeText ∧
        ((methods.map Method.name).Nodup →
          ∀ type, f.IsGiven methods node type →
            type = f.classified.typeText)

theorem keepsTypes_extractItems
    {items : List Item}
    {node : NodeSchema}
    (hNode : node ∈ (extractItems items).schema.nodes) :
    ∃ decl ∈ structsOf items,
      decl.name = node.name ∧
        node.KeepsTypes (extractItems items).schema.declares
          (DecoderUnit.ofSchema (extractItems items).schema).methods
          decl := by
  have hConsistent := extractItems_consistent items
  have hDeclared := hNode
  rw [extractItems_nodes] at hDeclared
  rcases List.mem_map.mp hDeclared with ⟨decl, hDecl, rfl⟩
  refine ⟨decl, mem_collectStructs hDecl, rfl, ?_⟩
  intro f hField
  have hFound := hField
  rw [itemNode, nodeOf_attributes] at hFound
  rcases mem_foundFields_iff.mp hFound with ⟨field, hMem, hResult⟩
  have hGiven := hConsistent.isGiven hNode hField
  refine ⟨field, hMem, (declaresName_of_fieldOf hResult).1, ?_,
    hGiven, ?_⟩
  · rw [declares_extractItems]
    exact classify_of_fieldOf hResult
  · intro hNames type hType
    exact isGiven_unique hNames hType hGiven

/-
  Classification reads just the types that a field can have, and
  what it gives writes the type again, but for the qualification
  of wrappers and for `::` in front of what they hold.  So a type
  is read exactly unless it has such a `::` in it.  In the unit of
  a source a field is given the type that it declares.
-/
theorem field_types_kept
    (known : String → Bool)
    (type : TypeExpr)
    (source : String)
    (items : List Item)
    (extraction : Extraction) :
    ((∃ found, type.classify known = .ok found) ↔
        SupportedType known type.unrooted) ∧
      (∀ found, type.classify known = .ok found →
        found.type = type.unrooted) ∧
      (type.ReadsExactly known ↔
        (SupportedType known type.unrooted →
          type.unrooted = type.unqualified)) ∧
      (items? source = some items →
        extract source = .ok extraction →
          ∀ node ∈ extraction.schema.nodes,
            attrsMethod node ∈
                (DecoderUnit.ofSchema extraction.schema).methods ∧
              ∃ decl ∈ structsOf items,
                decl.name = node.name ∧
                  node.KeepsTypes extraction.schema.declares
                    (DecoderUnit.ofSchema extraction.schema).methods
                    decl) := by
  refine ⟨TypeExpr.classify_isOk_iff,
    fun _ hFound => (TypeExpr.classify_eq_ok hFound).2,
    TypeExpr.readsExactly_iff, ?_⟩
  intro hItems h node hNode
  refine ⟨attrsMethod_mem_methods hNode, ?_⟩
  rcases extract_eq_ok_iff.mp h with ⟨_, hSame, _, rfl⟩
  cases hItems.symm.trans hSame
  exact keepsTypes_extractItems hNode

/- A node with `::` in front of a type, and a qualified option. -/
def rootedSource : String :=
  "struct Item \x7b name: ::String, "
    ++ "next: std::option::Option<Box<Item>> \x7d"

/-
  What is behind `::` is read as if it were not there, so that
  type is not read exactly.  The fields of that node are given
  these types.
-/
theorem rootedSource_kept :
    ¬ (TypeExpr.path true [.mk "String" none]).ReadsExactly
        (fun _ => false) ∧
      ∃ items extraction,
        items? rootedSource = some items ∧
          extract rootedSource = .ok extraction ∧
          (extraction.schema.nodes.map fun node =>
            node.attributes.map fun f =>
              (f.name, f.classified.typeText)) =
            [[("name", "String"), ("next", "Option<Box<Item>>")]] ∧
          ∀ node ∈ extraction.schema.nodes,
            attrsMethod node ∈
                (DecoderUnit.ofSchema extraction.schema).methods ∧
              ∃ decl ∈ structsOf items,
                decl.name = node.name ∧
                  node.KeepsTypes extraction.schema.declares
                    (DecoderUnit.ofSchema extraction.schema).methods
                    decl := by
  have hTypes :
      (extract rootedSource).toOption.map (fun extraction =>
        extraction.schema.nodes.map fun node =>
          node.attributes.map fun f =>
            (f.name, f.classified.typeText)) =
        some [[("name", "String"), ("next", "Option<Box<Item>>")]] := by
    decide +kernel
  cases h : extract rootedSource with
  | error e =>
      rw [h] at hTypes
      cases hTypes
  | ok extraction =>
      rw [h] at hTypes
      rcases extract_eq_ok_iff.mp h with ⟨items, hItems, _, _⟩
      rcases field_types_kept (fun _ => false)
        (.path true [.mk "String" none]) rootedSource items extraction
        with ⟨_, _, hExactly, hKept⟩
      refine ⟨?_, items, extraction, hItems, rfl,
        Option.some.inj hTypes, hKept hItems h⟩
      intro hExact
      have hScalar :
          (ElemType.scalar .string).IsKnown (fun _ => false) := trivial
      cases hExactly.mp hExact (.plain hScalar)

end TreeWire
