import TreeWire.Proofs.Declaration.Names
import TreeWire.Proofs.Text.SnakeCase
import TreeWire.Proofs.Unit.Coverage

/-
  The names of methods.

  A method is named for the snake case of a type.  That loses what
  is a capital letter, so methods of different types may have one
  name: where the snake case is the same, or where that of one
  type ends as the methods for attributes or sequences of another
  do.  These are the only ways.  A name is that of a method if it
  is an identifier and no keyword, which only a type with a raw
  name can prevent.

  Key definitions include:
    * `elemStem`
    * `StemsApart`
    * `IsMethodName`
    * `Method.IsForRaw`

  Main statements:
    * `names_methods_perm`
    * `nodup_names_methods_iff`
    * `isMethodName_of_mem_methods`
    * `methods_named`
    * `sameStemSource_collides`
-/

namespace TreeWire

open Declaration

------------------------------------------------------------
-- Names
------------------------------------------------------------

/- What stands for an element type in the names of methods. -/
def elemStem : ElemType → String
  | .scalar type => type.smallName
  | .node name => snakeCase name

/-
  Types whose methods have different names.  No two types have
  the same snake case, and no type has that of another one before
  the ending of a method for attributes or for sequences.
-/
structure StemsApart
    (schema : Schema) : Prop where
  types :
    ∀ type ∈ (DecoderUnit.ofSchema schema).types,
      ∀ other ∈ (DecoderUnit.ofSchema schema).types,
        snakeCase type = snakeCase other → type = other
  attributes :
    ∀ type ∈ (DecoderUnit.ofSchema schema).types,
      ∀ node ∈ schema.nodes,
        snakeCase type ≠ snakeCase node.name ++ "_attrs"
  sequences :
    ∀ type ∈ (DecoderUnit.ofSchema schema).types,
      ∀ elem, schema.HasElement elem →
        snakeCase type ≠ elemStem elem ++ "_array"
  elements :
    ∀ elem, schema.HasElement elem →
      ∀ other, schema.HasElement other →
        elemStem elem = elemStem other → elem = other

/- Whether a name can be the name of a method. -/
def IsMethodName
    (name : String) : Prop :=
  isIdentWord name.toList = true ∧ name ∉ TokenTree.reserved

/- Whether a name has the mark of a raw identifier. -/
def IsRawName
    (name : String) : Prop :=
  "r#".toList <+: name.toList

/- Whether a method is one of those for a type with a raw name. -/
def Method.IsForRaw
    (u : DecoderUnit)
    (m : Method) : Prop :=
  ∃ type ∈ u.types,
    IsRawName type ∧
      (m.name = decodeName type ∨ m.name = attrsName type ∨
        m.name = arrayName type)

theorem append_left_inj
    {start a b : String} :
    start ++ a = start ++ b ↔ a = b := by
  rw [← String.toList_inj, String.toList_append, String.toList_append,
    List.append_right_inj, String.toList_inj]

theorem append_right_inj
    {a b ending : String} :
    a ++ ending = b ++ ending ↔ a = b := by
  rw [← String.toList_inj, String.toList_append, String.toList_append,
    List.append_left_inj, String.toList_inj]

theorem attrsName_eq
    (type : String) :
    attrsName type = "decode_" ++ (snakeCase type ++ "_attrs") :=
  String.append_assoc

theorem arrayName_eq
    (type : String) :
    arrayName type = "decode_" ++ (snakeCase type ++ "_array") :=
  String.append_assoc

theorem elemArrayName_eq
    (elem : ElemType) :
    elemArrayName elem = "decode_" ++ (elemStem elem ++ "_array") := by
  cases elem with
  | scalar type => exact String.append_assoc
  | node name => exact arrayName_eq name

------------------------------------------------------------
-- Names of Methods
------------------------------------------------------------

/- The element types that a unit has methods for. -/
def arrayElements
    (schema : Schema) : List ElemType :=
  ((DecoderUnit.ofSchema schema).types.filter fun name =>
      (DecoderUnit.elements schema).contains (.node name)).map
        ElemType.node ++
    (ScalarType.all.filter fun type =>
      (DecoderUnit.elements schema).contains (.scalar type)).map
        ElemType.scalar

theorem names_methodsIn_perm
    (schema : Schema)
    (category : Category) :
    ((DecoderUnit.methodsIn schema category).map Method.name).Perm
      ((DecoderUnit.typesIn schema category).map decodeName ++
        (((schema.nodesIn category).map NodeSchema.name).map
            attrsName ++
          ((DecoderUnit.typesIn schema category).filter fun name =>
            (DecoderUnit.elements schema).contains (.node name)).map
              arrayName)) := by
  have hNodes (nodes : List NodeSchema) :
      ((nodes.map fun n =>
          [nodeMethod n, attrsMethod n]).flatten.map Method.name).Perm
        ((nodes.map NodeSchema.name).map decodeName ++
          (nodes.map NodeSchema.name).map attrsName) := by
    have hPairs := List.flatMap_append_perm nodes
      (fun n => [decodeName n.name]) (fun n => [attrsName n.name])
    rw [← List.map_eq_flatMap, ← List.map_eq_flatMap] at hPairs
    rw [← List.flatMap_def, List.map_flatMap, List.map_map,
      List.map_map]
    exact hPairs.symm
  rw [DecoderUnit.methodsIn, DecoderUnit.typesIn, List.map_append,
    List.map_append, List.map_append, List.map_map, List.map_map,
    List.map_map, ← List.append_assoc]
  apply List.Perm.append_right
  rw [List.append_assoc]
  exact (hNodes _).append_left _

/- The names of the methods of a unit. -/
theorem names_methods_perm
    (schema : Schema) :
    ((DecoderUnit.ofSchema schema).methods.map Method.name).Perm
      ((DecoderUnit.ofSchema schema).types.map decodeName ++
        ((schema.nodes.map NodeSchema.name).map attrsName ++
          (arrayElements schema).map elemArrayName)) := by
  have hOwn :
      (DecoderUnit.ofSchema schema).types =
        Category.order.flatMap (DecoderUnit.typesIn schema) :=
    List.flatMap_def.symm
  have hNodes :
      (Category.order.flatMap fun c =>
        ((schema.nodesIn c).map NodeSchema.name).map attrsName).Perm
          ((schema.nodes.map NodeSchema.name).map attrsName) := by
    rw [← List.map_flatMap, ← List.map_flatMap]
    exact ((flatMap_order_perm NodeSchema.category
      schema.nodes).map _).map _
  have hScalars :
      (DecoderUnit.ofSchema schema).scalarArrays.map Method.name =
        ((ScalarType.all.filter fun type =>
          (DecoderUnit.elements schema).contains (.scalar type)).map
            ElemType.scalar).map elemArrayName := by
    rw [DecoderUnit.ofSchema, List.map_map, List.map_map]
    rfl
  have hArrays :
      (Category.order.flatMap fun c =>
        ((DecoderUnit.typesIn schema c).filter fun name =>
          (DecoderUnit.elements schema).contains (.node name)).map
            arrayName) =
        ((Category.order.flatMap fun c =>
          (DecoderUnit.typesIn schema c).filter fun name =>
            (DecoderUnit.elements schema).contains (.node name)).map
              ElemType.node).map elemArrayName := by
    rw [List.map_map, List.map_flatMap]
    rfl
  rw [methods_ofSchema, List.map_append, List.map_flatMap, hScalars,
    arrayElements, List.map_append, hOwn, List.filter_flatMap,
    ← List.append_assoc, ← List.append_assoc]
  apply List.Perm.append_right
  refine (List.Perm.flatMap_left Category.order
    fun c _ => names_methodsIn_perm schema c).trans ?_
  refine (List.flatMap_append_perm _ _ _).symm.trans ?_
  rw [← List.map_flatMap, List.append_assoc]
  apply List.Perm.append_left
  refine (List.flatMap_append_perm _ _ _).symm.trans ?_
  rw [hArrays]
  exact hNodes.append_right _

theorem nodup_arrayElements
    {schema : Schema}
    (hTypes : (DecoderUnit.ofSchema schema).types.Nodup) :
    (arrayElements schema).Nodup := by
  have hScalars : ScalarType.all.Nodup := by decide
  rw [arrayElements, List.nodup_append]
  refine ⟨(hTypes.filter _).map fun _ _ h => ElemType.node.inj h,
    (hScalars.filter _).map fun _ _ h => ElemType.scalar.inj h, ?_⟩
  rintro _ hNode _ hScalar rfl
  rcases List.mem_map.mp hNode with ⟨name, _, rfl⟩
  rcases List.mem_map.mp hScalar with ⟨type, _, hSame⟩
  cases hSame

/- A unit has methods for the sequences that attributes hold. -/
theorem mem_arrayElements_iff
    {schema : Schema}
    (h : schema.Consistent)
    {elem : ElemType} :
    elem ∈ arrayElements schema ↔ schema.HasElement elem := by
  rw [h.hasElement_iff]
  cases elem with
  | scalar type =>
      have hAll : type ∈ ScalarType.all := by
        cases type <;> decide
      simp [arrayElements, hAll]
  | node name =>
      simpa [arrayElements] using h.mem_types_of_element

/-
  The methods of a unit have different names exactly if the stems
  of its types are apart.
-/
theorem nodup_names_methods_iff
    {schema : Schema}
    (h : schema.Consistent)
    (hTypes : (DecoderUnit.ofSchema schema).types.Nodup) :
    ((DecoderUnit.ofSchema schema).methods.map Method.name).Nodup ↔
      StemsApart schema := by
  have hNodeTypes :
      ∀ name ∈ schema.nodes.map NodeSchema.name,
        name ∈ (DecoderUnit.ofSchema schema).types := fun name hName =>
    (types_perm h.categories).mem_iff.mpr
      (List.mem_append_right _ hName)
  rw [(names_methods_perm schema).nodup_iff, List.nodup_append,
    List.nodup_append, List.nodup_map_iff_inj_on hTypes,
    List.nodup_map_iff_inj_on h.names,
    List.nodup_map_iff_inj_on (nodup_arrayElements hTypes)]
  constructor
  · rintro ⟨hOwn, ⟨_, hArrays, _⟩, hApart⟩
    constructor
    · intro type hType other hOther hSame
      exact hOwn type hType other hOther
        (congrArg ("decode_" ++ ·) hSame)
    · intro type hType node hNode hSame
      apply hApart _ (List.mem_map_of_mem hType) (attrsName node.name)
      · exact List.mem_append_left _
          (List.mem_map_of_mem (List.mem_map_of_mem hNode))
      · rw [attrsName_eq]
        exact congrArg ("decode_" ++ ·) hSame
    · intro type hType elem hElem hSame
      apply hApart _ (List.mem_map_of_mem hType) (elemArrayName elem)
      · exact List.mem_append_right _
          (List.mem_map_of_mem ((mem_arrayElements_iff h).mpr hElem))
      · rw [elemArrayName_eq]
        exact congrArg ("decode_" ++ ·) hSame
    · intro elem hElem other hOther hSame
      apply hArrays elem ((mem_arrayElements_iff h).mpr hElem) other
        ((mem_arrayElements_iff h).mpr hOther)
      rw [elemArrayName_eq, elemArrayName_eq, hSame]
  · intro hStems
    refine ⟨?_, ⟨?_, ?_, ?_⟩, ?_⟩
    · intro type hType other hOther hSame
      exact hStems.types type hType other hOther
        (append_left_inj.mp hSame)
    · intro name hName other hOther hSame
      rw [attrsName_eq, attrsName_eq, append_left_inj,
        append_right_inj] at hSame
      exact hStems.types name (hNodeTypes name hName) other
        (hNodeTypes other hOther) hSame
    · intro elem hElem other hOther hSame
      rw [elemArrayName_eq, elemArrayName_eq, append_left_inj,
        append_right_inj] at hSame
      exact hStems.elements elem ((mem_arrayElements_iff h).mp hElem)
        other ((mem_arrayElements_iff h).mp hOther) hSame
    · intro name hName other hOther
      rcases List.mem_map.mp hName with ⟨type, _, rfl⟩
      rcases List.mem_map.mp hOther with ⟨elem, _, rfl⟩
      exact attrsName_ne_elemArrayName type elem
    · intro name hName other hOther hSame
      rcases List.mem_map.mp hName with ⟨type, hType, rfl⟩
      rcases List.mem_append.mp hOther with hAttrs | hArray
      · rcases List.mem_map.mp hAttrs with ⟨_, hNames, rfl⟩
        rcases List.mem_map.mp hNames with ⟨node, hNode, rfl⟩
        rw [attrsName_eq] at hSame
        exact hStems.attributes type hType node hNode
          (append_left_inj.mp hSame)
      · rcases List.mem_map.mp hArray with ⟨elem, hElem, rfl⟩
        rw [elemArrayName_eq] at hSame
        exact hStems.sequences type hType elem
          ((mem_arrayElements_iff h).mp hElem)
          (append_left_inj.mp hSame)

------------------------------------------------------------
-- Identifiers
------------------------------------------------------------

/- What follows the start of a name makes it an identifier. -/
theorem isMethodName_of_stem
    {stem : String}
    (hStem : ∀ c ∈ stem.toList, isIdentContinue c = true) :
    IsMethodName ("decode_" ++ stem) := by
  have hStart :
      ("decode_" ++ stem).toList = "decode_".toList ++ stem.toList :=
    String.toList_append
  constructor
  · have hRest :
        (['e', 'c', 'o', 'd', 'e', '_'] ++ stem.toList).all
          isIdentContinue = true := by
      rw [List.all_append, List.all_eq_true.mpr hStem, Bool.and_true]
      decide
    have hFirst : isIdentStart 'd' = true := by decide
    rw [hStart]
    exact Bool.and_eq_true_iff.mpr ⟨hFirst, hRest⟩
  · have hReserved :
        ∀ word ∈ TokenTree.reserved,
          ¬ "decode_".toList <+: word.toList := by
      decide
    intro hMem
    apply hReserved _ hMem
    rw [hStart]
    exact List.prefix_append _ _

theorem isIdentContinue_of_isIdentStart
    {c : Char}
    (h : isIdentStart c = true) :
    isIdentContinue c = true := by
  rw [isIdentStart] at h
  rw [isIdentContinue]
  split at h
  · rename_i hAscii
    rw [if_pos hAscii, Char.isAlphanum]
    rw [Bool.or_eq_true] at h ⊢
    exact h.imp_left fun hAlpha => by rw [hAlpha, Bool.true_or]
  · rename_i hBeyond
    rw [if_neg hBeyond, h, Bool.true_or]

/- The snake case of a plain identifier keeps its characters. -/
theorem isIdentContinue_snakeCase
    {type : String}
    (hText : IdentifierText type)
    (hPlain : ¬ IsRawName type) :
    ∀ c ∈ (snakeCase type).toList, isIdentContinue c = true := by
  rcases hText with ⟨ident, rfl⟩
  have hWord : ident.text = ident.word := by
    rw [Identifier.text]
    split
    · rename_i hRaw
      exfalso
      apply hPlain
      rw [Identifier.text, if_pos hRaw, IsRawName,
        String.toList_append]
      exact List.prefix_append _ _
    · rfl
  have hChars : ∀ c ∈ ident.word.toList, isIdentContinue c = true := by
    have hIdent := ident.isWord
    cases hList : ident.word.toList with
    | nil => exact nofun
    | cons c cs =>
        rw [hList, isIdentWord, Bool.and_eq_true,
          List.all_eq_true] at hIdent
        rw [List.forall_mem_cons]
        exact ⟨isIdentContinue_of_isIdentStart hIdent.1, hIdent.2⟩
  rw [hWord, snakeCase, String.toList_ofList]
  exact isIdentContinue_of_mem_convert hChars

theorem isIdentContinue_append
    {stem ending : String}
    (hStem : ∀ c ∈ stem.toList, isIdentContinue c = true)
    (hEnding : ending.toList.all isIdentContinue = true) :
    ∀ c ∈ (stem ++ ending).toList, isIdentContinue c = true := by
  rw [String.toList_append]
  exact List.forall_mem_append.mpr
    ⟨hStem, List.all_eq_true.mp hEnding⟩

/-
  Every method has the name of one, unless it is named for a type
  with a raw name.
-/
theorem isMethodName_of_mem_methods
    {schema : Schema}
    (hText :
      ∀ type ∈ (DecoderUnit.ofSchema schema).types,
        IdentifierText type)
    (hCategories : (schema.sums.map SumType.category).Nodup)
    {m : Method}
    (h : m ∈ (DecoderUnit.ofSchema schema).methods) :
    IsMethodName m.name ∨
      m.IsForRaw (DecoderUnit.ofSchema schema) := by
  have hAttrs : "_attrs".toList.all isIdentContinue = true := by
    decide
  have hArray : "_array".toList.all isIdentContinue = true := by
    decide
  -- A type with a plain name has a stem that any ending can follow.
  have hNamed
      {type : String}
      (hType : type ∈ (DecoderUnit.ofSchema schema).types)
      (hName :
        m.name = decodeName type ∨ m.name = attrsName type ∨
          m.name = arrayName type) :
      IsMethodName m.name ∨
        m.IsForRaw (DecoderUnit.ofSchema schema) := by
    by_cases hRaw : IsRawName type
    · exact .inr ⟨type, hType, hRaw, hName⟩
    · have hStem := isIdentContinue_snakeCase (hText type hType) hRaw
      left
      rcases hName with hOwn | hOwn | hOwn <;> rw [hOwn]
      · exact isMethodName_of_stem hStem
      · rw [attrsName_eq]
        exact isMethodName_of_stem (isIdentContinue_append hStem hAttrs)
      · rw [arrayName_eq]
        exact isMethodName_of_stem (isIdentContinue_append hStem hArray)
  have hName := (names_methods_perm schema).mem_iff.mp
    (List.mem_map_of_mem h)
  rw [List.mem_append, List.mem_append] at hName
  rcases hName with hOwn | hOwn | hOwn
  · rcases List.mem_map.mp hOwn with ⟨type, hType, hName⟩
    exact hNamed hType (.inl hName.symm)
  · rcases List.mem_map.mp hOwn with ⟨type, hNode, hName⟩
    exact hNamed ((types_perm hCategories).mem_iff.mpr
      (List.mem_append_right _ hNode)) (.inr (.inl hName.symm))
  · rcases List.mem_map.mp hOwn with ⟨elem, hElem, hName⟩
    rcases List.mem_append.mp hElem with hNode | hScalar
    · rcases List.mem_map.mp hNode with ⟨type, hType, rfl⟩
      exact hNamed (List.mem_filter.mp hType).1
        (.inr (.inr hName.symm))
    · rcases List.mem_map.mp hScalar with ⟨type, _, rfl⟩
      left
      rw [← hName, elemArrayName_eq]
      have hSmall :
          type.smallName.toList.all isIdentContinue = true := by
        cases type <;> decide
      exact isMethodName_of_stem (isIdentContinue_append
        (List.all_eq_true.mp hSmall) hArray)

------------------------------------------------------------
-- Units of Sources
------------------------------------------------------------

/- The types of a unit are named by identifiers of the source. -/
theorem identifierText_of_mem_types
    {source type : String}
    {items : List Item}
    (hItems : items? source = some items)
    (h :
      type ∈ (DecoderUnit.ofSchema (extractItems items).schema).types) :
    IdentifierText type := by
  rw [(types_perm (extractItems_consistent items).categories).mem_iff,
    List.mem_append, names_extractItems_sums] at h
  rcases h with hSum | hNode
  · have hEnum := (names_foundSums items).subset hSum
    rcases List.mem_map.mp hEnum with ⟨d, hMem, rfl⟩
    rcases List.mem_filterMap.mp hMem with ⟨item, hItem, hDecl⟩
    split at hDecl
    · cases hDecl
      exact identifierText_of_items? hItems hItem rfl
    · cases hDecl
  · rw [extractItems_nodes, List.map_map] at hNode
    rcases List.mem_map.mp hNode with ⟨d, hDecl, rfl⟩
    rcases List.mem_filterMap.mp (mem_collectStructs hDecl) with
      ⟨item, hItem, hStruct⟩
    split at hStruct
    · cases hStruct
      exact identifierText_of_items? hItems hItem rfl
    · cases hStruct

/-
  In the unit of a source the methods have different names exactly
  if the stems of its types are apart, and every name is one of a
  method unless the type it is for has a raw name.
-/
theorem methods_named
    (source : String)
    (items : List Item)
    (extraction : Extraction)
    (hItems : items? source = some items)
    (hDistinct :
      ((enumsOf items).map EnumDecl.name ++
        (structsOf items).map StructDecl.name).Nodup)
    (h : extract source = .ok extraction) :
    (((DecoderUnit.ofSchema extraction.schema).methods.map
        Method.name).Nodup ↔ StemsApart extraction.schema) ∧
      ∀ m ∈ (DecoderUnit.ofSchema extraction.schema).methods,
        IsMethodName m.name ∨
          m.IsForRaw (DecoderUnit.ofSchema extraction.schema) := by
  rcases extract_eq_ok_iff.mp h with ⟨_, hSame, _, rfl⟩
  cases hItems.symm.trans hSame
  have hConsistent := extractItems_consistent items
  exact ⟨nodup_names_methods_iff hConsistent (nodup_types hDistinct),
    fun _ hMem => isMethodName_of_mem_methods
      (fun _ hType => identifierText_of_mem_types hItems hType)
      hConsistent.categories hMem⟩

/- A node type with an acronym in its name, and a raw one. -/
def acronymSource : String :=
  "struct HTTPServer \x7b ids: Vec<i64>, next: Vec<r#type> \x7d\n"
    ++ "struct r#type;"

/- The methods of that unit have different names, and only those
  for the second type have none of a method. -/
theorem acronymSource_named :
    ∃ items extraction,
      items? acronymSource = some items ∧
        ((enumsOf items).map EnumDecl.name ++
          (structsOf items).map StructDecl.name).Nodup ∧
        extract acronymSource = .ok extraction ∧
        (DecoderUnit.ofSchema extraction.schema).methods.map
            Method.name =
          ["decode_http_server", "decode_http_server_attrs",
            "decode_r#type", "decode_r#type_attrs",
            "decode_r#type_array", "decode_i64_array"] ∧
        (((DecoderUnit.ofSchema extraction.schema).methods.map
            Method.name).Nodup ↔ StemsApart extraction.schema) ∧
        ∀ m ∈ (DecoderUnit.ofSchema extraction.schema).methods,
          IsMethodName m.name ∨
            m.IsForRaw (DecoderUnit.ofSchema extraction.schema) := by
  have hDistinct :
      (items? acronymSource).map (fun items =>
        (enumsOf items).map EnumDecl.name ++
          (structsOf items).map StructDecl.name) =
        some ["HTTPServer", "r#type"] := by
    decide +kernel
  have hMethods :
      (extract acronymSource).toOption.map (fun extraction =>
        (DecoderUnit.ofSchema extraction.schema).methods.map
          Method.name) =
        some ["decode_http_server", "decode_http_server_attrs",
          "decode_r#type", "decode_r#type_attrs",
          "decode_r#type_array", "decode_i64_array"] := by
    decide +kernel
  rcases Option.map_eq_some_iff.mp hDistinct with
    ⟨items, hItems, hNames⟩
  have hNodup :
      ((enumsOf items).map EnumDecl.name ++
        (structsOf items).map StructDecl.name).Nodup := by
    rw [hNames]
    decide
  cases h : extract acronymSource with
  | error e =>
      rw [h] at hMethods
      cases hMethods
  | ok extraction =>
      rw [h] at hMethods
      exact ⟨items, extraction, hItems, hNodup, rfl,
        Option.some.inj hMethods,
        methods_named acronymSource items extraction hItems hNodup h⟩

/- Two types that only a capital letter tells apart. -/
def sameStemSource : String :=
  "struct Foo;\nstruct foo;"

/- The unit of that source defines both of its methods twice. -/
theorem sameStemSource_collides :
    ∃ items extraction,
      items? sameStemSource = some items ∧
        ((enumsOf items).map EnumDecl.name ++
          (structsOf items).map StructDecl.name).Nodup ∧
        extract sameStemSource = .ok extraction ∧
        (DecoderUnit.ofSchema extraction.schema).methods.map
            Method.name =
          ["decode_foo", "decode_foo_attrs", "decode_foo",
            "decode_foo_attrs"] ∧
        ¬ ((DecoderUnit.ofSchema extraction.schema).methods.map
            Method.name).Nodup := by
  have hDistinct :
      (items? sameStemSource).map (fun items =>
        (enumsOf items).map EnumDecl.name ++
          (structsOf items).map StructDecl.name) =
        some ["Foo", "foo"] := by
    decide +kernel
  have hMethods :
      (extract sameStemSource).toOption.map (fun extraction =>
        (DecoderUnit.ofSchema extraction.schema).methods.map
          Method.name) =
        some ["decode_foo", "decode_foo_attrs", "decode_foo",
          "decode_foo_attrs"] := by
    decide +kernel
  rcases Option.map_eq_some_iff.mp hDistinct with
    ⟨items, hItems, hNames⟩
  have hNodup :
      ((enumsOf items).map EnumDecl.name ++
        (structsOf items).map StructDecl.name).Nodup := by
    rw [hNames]
    decide
  cases h : extract sameStemSource with
  | error e =>
      rw [h] at hMethods
      cases hMethods
  | ok extraction =>
      rw [h] at hMethods
      have hTwice :
          (DecoderUnit.ofSchema extraction.schema).methods.map
            Method.name = _ := Option.some.inj hMethods
      refine ⟨items, extraction, hItems, hNodup, rfl, hTwice, ?_⟩
      rw [hTwice]
      decide

end TreeWire
