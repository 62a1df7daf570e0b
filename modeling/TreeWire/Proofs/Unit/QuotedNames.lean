import TreeWire.Proofs.Unit.CodeText
import TreeWire.Proofs.Unit.MethodNames

/-
  Names in documents stay in their quotes.

  All names that a unit writes as code are identifiers of the
  source, and all that it quotes need no escapes.  So its text can
  be read again, and what is read between quotes is what the
  schema says.  Sources that are the same but for new names that
  are accepted give the same text apart from that.

  Key definitions include:
    * `Schema.Spelled`
    * `Coded`

  Main statements:
    * `spelled_extractItems`
    * `Schema.Spelled.isCode_or_isComment`
    * `unit_of_renamed_items`
-/

namespace TreeWire

open Declaration

------------------------------------------------------------
-- Identifiers as Code
------------------------------------------------------------

/- Whether a character can stand in the text of an identifier. -/
def isTextChar
    (c : Char) : Bool :=
  isIdentContinue c || c == '#'

theorem isTextChar_of_mem
    {name : String}
    (h : IdentifierText name) :
    ∀ c ∈ name.toList, isTextChar c = true := by
  rcases h with ⟨ident, rfl⟩
  have hWord : ∀ c ∈ ident.word.toList, isTextChar c = true := by
    have hIdent := ident.isWord
    cases hChars : ident.word.toList with
    | nil => exact nofun
    | cons c cs =>
        rw [hChars, isIdentWord, Bool.and_eq_true,
          List.all_eq_true] at hIdent
        rw [List.forall_mem_cons]
        exact ⟨by rw [isTextChar,
            isIdentContinue_of_isIdentStart hIdent.1, Bool.true_or],
          fun d hMem => by
            rw [isTextChar, hIdent.2 d hMem, Bool.true_or]⟩
  rw [Identifier.text]
  split
  · rw [String.toList_append, List.forall_mem_append]
    exact ⟨List.all_eq_true.mp (by decide), hWord⟩
  · exact hWord

/- The small forms of such characters are such characters. -/
theorem isTextChar_of_mem_smallForm
    {c d : Char}
    (hChar : isTextChar c = true)
    (h : d ∈ smallForm c) :
    isTextChar d = true := by
  rw [isTextChar, Bool.or_eq_true, beq_iff_eq] at hChar
  rcases hChar with hIdent | rfl
  · rw [isTextChar, isIdentContinue_of_mem_smallForm hIdent h,
      Bool.true_or]
  · rw [List.mem_singleton.mp h]
    decide

theorem isCodeChar_of_isTextChar
    {c : Char}
    (h : isTextChar c = true) :
    isCodeChar c = true := by
  have hNot {d : Char} (hOther : isTextChar d = false) : c ≠ d := by
    rintro rfl
    rw [h] at hOther
    cases hOther
  rw [isCodeChar, Bool.and_eq_true, Bool.and_eq_true, bne_iff_ne,
    bne_iff_ne, bne_iff_ne]
  exact ⟨⟨hNot (by decide), hNot (by decide)⟩, hNot (by decide)⟩

theorem isPlainCode_of_identifierText
    {name : String}
    (h : IdentifierText name) :
    isPlainCode name = true :=
  List.all_eq_true.mpr fun c hMem =>
    isCodeChar_of_isTextChar (isTextChar_of_mem h c hMem)

theorem isPlainCode_decodeName
    {type : String}
    (h : IdentifierText type) :
    isPlainCode (decodeName type) = true := by
  have hStem : isPlainCode (snakeCase type) = true := by
    rw [isPlainCode, snakeCase, String.toList_ofList, List.all_eq_true]
    intro c hMem
    apply isCodeChar_of_isTextChar
    exact of_mem_convert (P := fun c => isTextChar c = true)
      (by decide) (fun _ hChar _ => isTextChar_of_mem_smallForm hChar)
      (isTextChar_of_mem h) c hMem
  rw [decodeName, isPlainCode_append, hStem]
  decide

/- An identifier needs no escapes between quotes. -/
theorem plainName_of_identifierText
    {name : String}
    (h : IdentifierText name) :
    PlainName name := by
  rcases h with ⟨ident, rfl⟩
  have hWord := isWireName_word ident
  apply plainName_of_isWireName
  rw [Identifier.text]
  split
  · rw [WireOptions.isWireName, Bool.and_eq_true] at hWord ⊢
    refine ⟨by simp, ?_⟩
    rw [String.toList_append, List.all_append, hWord.2]
    decide
  · exact hWord

------------------------------------------------------------
-- Methods as Code
------------------------------------------------------------

/- Whether all lines are code that can be read again. -/
def Coded
    (lines : List Line) : Prop :=
  ∀ line ∈ lines, line.IsCode

@[simp]
theorem coded_append
    {lines others : List Line} :
    Coded (lines ++ others) ↔ Coded lines ∧ Coded others :=
  List.forall_mem_append

@[simp]
theorem coded_cons
    {line : Line}
    {lines : List Line} :
    Coded (line :: lines) ↔ line.IsCode ∧ Coded lines :=
  List.forall_mem_cons

@[simp]
theorem coded_nil : Coded [] :=
  List.forall_mem_nil _

@[simp]
theorem coded_map
    {α : Type}
    {as : List α}
    {line : α → Line} :
    Coded (as.map line) ↔ ∀ a ∈ as, (line a).IsCode :=
  List.forall_mem_map

/- The code of a method is that of its body, and its first line. -/
theorem coded_lines
    {m : Method}
    (hName : isPlainCode m.name = true)
    (hResult : isPlainCode m.result = true)
    (hBody : Coded m.body) :
    Coded m.lines := by
  simp only [Method.lines, coded_append, coded_cons, coded_nil,
    isCode_plain, isPlainCode_append, hName, hResult, hBody]
  decide

theorem coded_openObject
    {onEmpty : List Piece}
    (h :
      Line.IsCode ⟨3, [.code "return "] ++ onEmpty ++ [.code ";"]⟩) :
    Coded (openObject onEmpty) := by
  simp only [openObject, coded_cons, coded_nil, isCode_plain, h]
  decide

theorem coded_emptyError
    {name : String}
    (h : PlainName name) :
    Coded (openObject (emptyError name)) := by
  apply coded_openObject
  simp only [emptyError, List.cons_append, List.nil_append, isCode_mk,
    Readable, h]
  decide

theorem coded_sumMethod
    {sum : SumType}
    (hName : IdentifierText sum.name)
    (hTag : PlainName sum.tag)
    (hVariants :
      ∀ v ∈ sum.variants,
        IdentifierText v.name ∧ IdentifierText v.node ∧
          PlainName v.wireName) :
    Coded (sumMethod sum).lines := by
  have hCode := isPlainCode_of_identifierText hName
  have hQuoted := plainName_of_identifierText hName
  have hArms : Coded (sum.variants.map (variantLine sum)) := by
    rw [coded_map]
    intro v hMem
    rcases hVariants v hMem with ⟨hVariant, hNode, hWire⟩
    simp only [variantLine, isCode_mk, Readable, isPlainCode_append,
      attrsName, hCode, isPlainCode_of_identifierText hVariant,
      isPlainCode_decodeName hNode, hWire]
    decide
  have hOpen := coded_emptyError hQuoted
  apply coded_lines (m := sumMethod sum)
    (isPlainCode_decodeName hName) hCode
  simp only [sumMethod, coded_append, coded_cons, coded_nil,
    isCode_plain, isCode_mk, Readable, hOpen, hArms, hQuoted, hTag]
  decide

theorem coded_nodeMethod
    {node : NodeSchema}
    (hName : IdentifierText node.name)
    (hVariant :
      ∀ variant, node.variantName = some variant →
        PlainName variant) :
    Coded (nodeMethod node).lines := by
  have hCode := isPlainCode_of_identifierText hName
  have hCalled := isPlainCode_decodeName hName
  have hExpect : Coded (expectLines node) := by
    unfold expectLines
    split
    · rename_i tag variant hTag hSome
      have hPlain :=
        plainName_of_isWireName (isWireName_of_tag? hTag)
      simp only [coded_cons, coded_nil, isCode_mk, Readable, hPlain,
        hVariant variant hSome]
      decide
    · exact coded_nil
  have hOpen :
      Coded (openObject (if node.category.isSum then
          emptyError node.name
        else
          [.code ("Ok(" ++ node.name ++ "::default())")])) := by
    split
    · exact coded_emptyError (plainName_of_identifierText hName)
    · apply coded_openObject
      simp only [List.cons_append, List.nil_append, isCode_mk,
        Readable, isPlainCode_append, hCode]
      decide
  apply coded_lines (m := nodeMethod node) hCalled hCode
  simp only [nodeMethod, coded_append, coded_cons, coded_nil,
    isCode_mk, Readable, attrsName, isPlainCode_append, hOpen,
    hExpect, hCalled]
  decide

/- The variable of a field is named by an identifier as well. -/
theorem isPlainCode_localName
    {f : FieldDescriptor}
    (h : IdentifierText f.name) :
    isPlainCode (localName f) = true := by
  have hName := isPlainCode_of_identifierText h
  have hPlain : isPlainCode (WireOptions.plainIdent f.name) = true := by
    rw [WireOptions.plainIdent]
    split
    · rw [isPlainCode, String.toList_ofList, List.all_eq_true]
      intro c hMem
      exact List.all_eq_true.mp hName c (List.mem_of_mem_drop hMem)
    · exact hName
  rw [localName, isPlainCode_append, hPlain]
  decide

section

variable {node : NodeSchema} {f : FieldDescriptor}
variable (hNode : IdentifierText node.name)
variable (hName : IdentifierText f.name)
variable (hWire : PlainName f.wireName)

include hNode hName hWire

/- The value of a field is code whose hop can be read again. -/
theorem isCode_value
    (hTarget :
      ∀ target, f.kind.target? = some target → IdentifierText target) :
    Line.IsCode ⟨5, [.code (localName f ++ " = Some(")]
      ++ valuePieces node f ++ [.code ");"]⟩ := by
  have hQuoted := plainName_of_identifierText hNode
  have hLocal := isPlainCode_localName hName
  unfold valuePieces
  split
  · rename_i type hKind
    simp only [hopPieces, List.cons_append, List.nil_append, isCode_mk,
      Readable, isPlainCode_append, hLocal, hQuoted, hWire]
    cases type <;> decide
  · rename_i target hKind
    have hCalled := isPlainCode_decodeName
      (hTarget target (by rw [hKind]; rfl))
    dsimp only
    split <;>
      simp only [hopPieces, List.cons_append, List.nil_append,
        isCode_mk, Readable, isPlainCode_append, hLocal, hQuoted,
        hWire, hCalled] <;>
      decide
  · rename_i elem hKind
    have hCalled : isPlainCode (elemArrayName elem) = true := by
      cases elem with
      | scalar type => cases type <;> decide
      | node target =>
          rw [elemArrayName, arrayName, isPlainCode_append,
            isPlainCode_decodeName (hTarget target (by rw [hKind]; rfl))]
          decide
    simp only [hopPieces, List.cons_append, List.nil_append, isCode_mk,
      Readable, isPlainCode_append, hLocal, hQuoted, hWire, hCalled]
    decide

theorem isCode_fillLine :
    (fillLine node f).IsCode := by
  have hQuoted := plainName_of_identifierText hNode
  have hLocal := isPlainCode_localName hName
  have hCode := isPlainCode_of_identifierText hName
  have hOpen :
      endsOpen (f.name ++ ": " ++ localName f
        ++ ".ok_or_else(|| DecodeError::missing_field(") = true :=
    endsOpen_append _ (by decide)
  unfold fillLine
  split <;>
    simp only [isCode_plain, isCode_mk, Readable, isPlainCode_append,
      hLocal, hQuoted, hCode, hWire, hOpen] <;>
    decide

end

theorem coded_attrsMethod
    {node : NodeSchema}
    (hNode : IdentifierText node.name)
    (hFields :
      ∀ f ∈ node.attributes,
        IdentifierText f.name ∧ PlainName f.wireName ∧
          ∀ target, f.kind.target? = some target →
            IdentifierText target)
    (hSkipped : ∀ name ∈ node.skipped, IdentifierText name) :
    Coded (attrsMethod node).lines := by
  have hCode := isPlainCode_of_identifierText hNode
  have hQuoted := plainName_of_identifierText hNode
  have hLocals :
      Coded (node.attributes.map fun f =>
        .plain 2 ("let mut " ++ localName f ++ " = None;")) := by
    rw [coded_map]
    intro f hMem
    simp only [isCode_plain, isPlainCode_append,
      isPlainCode_localName (hFields f hMem).1]
    decide
  have hArms :
      Coded (node.attributes.map (attributeLines node)).flatten := by
    intro line hLine
    rw [← List.flatMap_def, List.mem_flatMap] at hLine
    rcases hLine with ⟨f, hMem, hLine⟩
    rcases hFields f hMem with ⟨hName, hWire, hTarget⟩
    have hArm : Coded (attributeLines node f) := by
      have hValue := isCode_value hNode hName hWire hTarget
      rw [attributeLines]
      split <;>
        simp only [coded_append, coded_cons, coded_nil, isCode_plain,
          hValue, isCode_mk, Readable, hWire] <;>
        decide
    exact hArm line hLine
  have hRead : Coded (readLines node) := by
    unfold readLines
    split
    · simp only [coded_cons, coded_nil, isCode_plain, isCode_mk,
        Readable, hQuoted]
      decide
    · split <;>
        simp only [coded_append, coded_cons, coded_nil, isCode_plain,
          isCode_mk, Readable, hQuoted, hLocals, hArms] <;>
        decide
  have hFill : Coded (node.attributes.map (fillLine node)) := by
    rw [coded_map]
    intro f hMem
    exact isCode_fillLine hNode (hFields f hMem).1 (hFields f hMem).2.1
  have hRest :
      Coded (node.skipped.map fun name =>
        .plain 3 (name ++ ": Default::default(),")) := by
    rw [coded_map]
    intro name hMem
    simp only [isCode_plain, isPlainCode_append,
      isPlainCode_of_identifierText (hSkipped name hMem)]
    decide
  apply coded_lines (m := attrsMethod node)
  · rw [attrsMethod, attrsName, isPlainCode_append,
      isPlainCode_decodeName hNode]
    decide
  · exact hCode
  · simp only [attrsMethod, coded_append, coded_cons, coded_nil,
      isCode_plain, isPlainCode_append, hCode, hRead, hFill, hRest]
    decide

theorem coded_arrayLines
    {item : List Piece}
    (h :
      Line.IsCode ⟨3, [.code "let item = "] ++ item
        ++ [.code ".map_err(|e| e.at_index(items.len()))?;"]⟩) :
    Coded (arrayLines item) := by
  simp only [arrayLines, coded_cons, coded_nil, isCode_plain, h]
  decide

theorem coded_arrayMethod
    {type : String}
    (h : IdentifierText type) :
    Coded (arrayMethod type).lines := by
  have hCode := isPlainCode_of_identifierText h
  have hCalled := isPlainCode_decodeName h
  apply coded_lines (m := arrayMethod type)
  · rw [arrayMethod, arrayName, isPlainCode_append, hCalled]
    decide
  · rw [arrayMethod, isPlainCode_append, isPlainCode_append, hCode]
    decide
  · apply coded_arrayLines
    simp only [List.cons_append, List.nil_append, isCode_mk, Readable,
      hCalled]
    decide

theorem coded_scalarArrayMethod
    (type : ScalarType) :
    Coded (scalarArrayMethod type).lines := by
  apply coded_lines (m := scalarArrayMethod type)
  · cases type <;> decide
  · cases type <;> decide
  · apply coded_arrayLines
    simp only [List.cons_append, List.nil_append, isCode_mk, Readable]
    cases type <;> decide

------------------------------------------------------------
-- Units as Code
------------------------------------------------------------

/- A schema whose names, other than in documents, are identifiers. -/
structure Schema.Spelled
    (schema : Schema) : Prop where
  types :
    ∀ type ∈ (DecoderUnit.ofSchema schema).types, IdentifierText type
  variants :
    ∀ sum ∈ schema.sums, ∀ v ∈ sum.variants, IdentifierText v.name
  fields :
    ∀ node ∈ schema.nodes, ∀ f ∈ node.attributes,
      IdentifierText f.name
  skipped :
    ∀ node ∈ schema.nodes, ∀ name ∈ node.skipped,
      IdentifierText name

/- The name of the variant of a node type is that of its carrier. -/
theorem Schema.Consistent.plainName_variantName
    {schema : Schema}
    {node : NodeSchema}
    {variant : String}
    (h : schema.Consistent)
    (hNode : node ∈ schema.nodes)
    (hVariant : node.variantName = some variant) :
    PlainName variant := by
  have hCount := h.carriers node hNode
  have hMember : node.category ≠ .other := by
    intro hOther
    rw [h.others node hNode hOther] at hVariant
    cases hVariant
  rw [if_neg hMember] at hCount
  rcases List.countP_pos_iff.mp (hCount ▸ Nat.one_pos) with
    ⟨v, hMem, hCarries⟩
  rcases List.mem_flatMap.mp hMem with ⟨sum, hSum, hOwn⟩
  rcases h.carried sum hSum v hOwn with
    ⟨carried, hFound, _, hName⟩
  have hSame : carried = node := by
    apply List.inj_on_of_nodup_map h.names
      (List.mem_of_find?_eq_some hFound) hNode
    have hCarried := List.find?_some hFound
    exact (of_decide_eq_true hCarried).trans
      (of_decide_eq_true hCarries)
  rw [hSame, hVariant] at hName
  rw [Option.some.inj hName]
  exact h.variantNames sum hSum v hOwn

namespace Schema.Spelled

variable {schema : Schema}

/- The methods of a unit are code. -/
theorem coded_methods
    (h : schema.Spelled)
    (hSchema : schema.Consistent)
    {m : Method}
    (hMem : m ∈ (DecoderUnit.ofSchema schema).methods) :
    Coded m.lines := by
  have hDeclared {name : String} (hName : schema.declares name = true) :
      IdentifierText name :=
    h.types name (hSchema.mem_types_iff.mpr hName)
  have hNodeName {node : NodeSchema} (hNode : node ∈ schema.nodes) :
      IdentifierText node.name :=
    h.types _ ((types_perm hSchema.categories).mem_iff.mpr
      (List.mem_append_right _ (List.mem_map_of_mem hNode)))
  rcases mem_methods_iff.mp hMem with ⟨category, sum, hSum, rfl⟩ |
    ⟨node, hNode, rfl | rfl⟩ | ⟨category, type, hType, _, rfl⟩ |
    ⟨type, _, rfl⟩
  · have hIn := List.mem_of_find?_eq_some hSum
    apply coded_sumMethod
    · exact h.types _ ((types_perm hSchema.categories).mem_iff.mpr
        (List.mem_append_left _ (List.mem_map_of_mem hIn)))
    · exact plainName_of_isWireName
        (isWireName_of_tag? (hSchema.tags sum hIn))
    · intro v hVariant
      rcases hSchema.carried sum hIn v hVariant with ⟨node, hNode, _⟩
      refine ⟨h.variants sum hIn v hVariant, hDeclared ?_,
        hSchema.variantNames sum hIn v hVariant⟩
      rw [declares, hNode]
      rfl
  · exact coded_nodeMethod (hNodeName hNode) fun _ hVariant =>
      hSchema.plainName_variantName hNode hVariant
  · refine coded_attrsMethod (hNodeName hNode) (fun f hField => ?_)
      (h.skipped node hNode)
    have hIn := (List.mem_filter.mp hField).1
    exact ⟨h.fields node hNode f hField,
      hSchema.fieldNames node hNode f hIn, fun target hTarget =>
        hDeclared (hSchema.targets node hNode f hIn target hTarget)⟩
  · apply coded_arrayMethod
    apply h.types
    refine List.mem_flatten.mpr ⟨_, List.mem_map.mpr
      ⟨category, ?_, rfl⟩, hType⟩
    cases category <;> decide
  · exact coded_scalarArrayMethod type

theorem coded_methodLines
    (h : schema.Spelled)
    (hSchema : schema.Consistent)
    {ms : List Method}
    (hMs : ∀ m ∈ ms, m ∈ (DecoderUnit.ofSchema schema).methods) :
    Coded (DecoderUnit.methodLines ms) := by
  rw [methodLines_eq_flatMap]
  intro line hMem
  rcases List.mem_flatMap.mp hMem with ⟨m, hM, hLine⟩
  rcases List.mem_cons.mp hLine with rfl | hLine
  · exact trivial
  · exact h.coded_methods hSchema (hMs m hM) line hLine

/- A section is code behind a comment. -/
theorem sectionLines_isCode_or_isComment
    (h : schema.Spelled)
    (hSchema : schema.Consistent)
    {s : UnitSection}
    (hSection : s ∈ (DecoderUnit.ofSchema schema).sections) :
    ∀ line ∈ DecoderUnit.sectionLines s,
      line.IsCode ∨ line.IsComment := by
  rw [DecoderUnit.sectionLines, List.forall_mem_cons]
  constructor
  · have hLabel : ∃ category : Category, s.label = category.label := by
      rcases List.mem_filterMap.mp hSection with ⟨category, _, hSome⟩
      rw [DecoderUnit.sectionOf?] at hSome
      split at hSome
      · cases hSome
      · cases hSome
        exact ⟨category, rfl⟩
    rcases hLabel with ⟨category, hLabel⟩
    rw [hLabel]
    exact .inr ⟨_, rfl, by cases category <;> decide⟩
  · intro line hMem
    refine .inl (h.coded_methodLines hSchema (fun m hM => ?_)
      line hMem)
    exact List.mem_append_left _ (List.mem_flatten.mpr
      ⟨_, List.mem_map_of_mem hSection, hM⟩)

/- Every line of a unit is code that can be read again, or a comment. -/
theorem isCode_or_isComment
    (h : schema.Spelled)
    (hSchema : schema.Consistent) :
    ∀ line ∈ (DecoderUnit.ofSchema schema).lines,
      line.IsCode ∨ line.IsComment := by
  have hCode {lines : List Line} (hLines : Coded lines) :
      ∀ line ∈ lines, line.IsCode ∨ line.IsComment :=
    fun line hMem => .inl (hLines line hMem)
  have hSections :
      ∀ sections ⊆ (DecoderUnit.ofSchema schema).sections,
        ∀ line ∈ DecoderUnit.sectionsLines sections,
          line.IsCode ∨ line.IsComment := by
    intro sections hSubset
    fun_induction DecoderUnit.sectionsLines sections with
    | case1 => exact List.forall_mem_nil _
    | case2 s =>
        exact h.sectionLines_isCode_or_isComment hSchema
          (hSubset List.mem_cons_self)
    | case3 s rest _ ih =>
        rw [List.forall_mem_append, List.forall_mem_cons]
        exact ⟨h.sectionLines_isCode_or_isComment hSchema
            (hSubset List.mem_cons_self), .inl trivial,
          ih (List.subset_of_cons_subset hSubset)⟩
  have hImports :
      Coded ((DecoderUnit.ofSchema schema).types.map fun name =>
        .plain 1 (name ++ ",")) := by
    rw [coded_map]
    intro type hType
    simp only [isCode_plain, isPlainCode_append,
      isPlainCode_of_identifierText (h.types type hType)]
    decide
  have hImpls :
      Coded ((DecoderUnit.ofSchema schema).types.map
        DecoderUnit.implLines).flatten := by
    intro line hMem
    rw [← List.flatMap_def, List.mem_flatMap] at hMem
    rcases hMem with ⟨type, hType, hLine⟩
    have hOwn : Coded (DecoderUnit.implLines type) := by
      simp only [DecoderUnit.implLines, coded_cons, coded_nil,
        isCode_plain, isCode_mk, Readable, isPlainCode_append,
        isPlainCode_of_identifierText (h.types type hType),
        isPlainCode_decodeName (h.types type hType)]
      exact ⟨trivial, by decide⟩
    exact hOwn line hLine
  have hScalars :
      Coded (DecoderUnit.methodLines
        (DecoderUnit.ofSchema schema).scalarArrays) :=
    h.coded_methodLines hSchema fun _ hMem =>
      List.mem_append_right _ hMem
  have hPlain {text : String} (hText : isPlainCode text = true) :
      (Line.plain 0 text).IsCode ∨ (Line.plain 0 text).IsComment :=
    .inl ((isCode_plain 0 text).mpr hText)
  have hNil :
      ∀ line ∈ ([] : List Line), line.IsCode ∨ line.IsComment :=
    List.forall_mem_nil _
  have hBlank : Line.blank.IsCode ∨ Line.blank.IsComment :=
    .inl trivial
  simp only [DecoderUnit.lines, DecoderUnit.headerLines,
    List.forall_mem_append, List.forall_mem_cons]
  exact ⟨⟨⟨⟨⟨⟨⟨⟨.inr ⟨_, rfl, by decide⟩, .inr ⟨_, rfl, by decide⟩,
    hBlank, hPlain (by decide), hPlain (by decide),
    hPlain (by decide), hPlain (by decide), hNil⟩,
    hCode hImports⟩, hPlain (by decide), hBlank, hNil⟩,
    hPlain (by decide), hNil⟩, hSections _ (List.Subset.refl _)⟩,
    hCode hScalars⟩, hPlain (by decide), hNil⟩, hCode hImpls⟩

end Schema.Spelled

/- The names of a source are its identifiers. -/
theorem spelled_extractItems
    {source : String}
    {items : List Item}
    (hItems : items? source = some items) :
    (extractItems items).schema.Spelled where
  types := fun _ hType => identifierText_of_mem_types hItems hType
  variants := by
    intro sum hSum v hVariant
    rcases exists_sublist_of_mem_retainAll hSum with
      ⟨whole, hWhole, _, hSublist⟩
    rcases exists_sumOf_of_mem hWhole with hNone | ⟨decl, _, hFound⟩
    · cases hNone
    · have hOwn := hSublist.subset hVariant
      rw [(sumOf_some (Prod.ext hFound rfl)).2.1,
        mem_successes_iff, variantResults, List.map_map] at hOwn
      rcases List.mem_map.mp hOwn with ⟨w, _, hResult⟩
      exact ⟨w.name, (declaresName_of_variantOf hResult).1.symm⟩
  fields := by
    intro node hNode f hField
    rw [extractItems_nodes] at hNode
    rcases List.mem_map.mp hNode with ⟨d, _, rfl⟩
    rw [NodeSchema.attributes, List.mem_filter, itemNode,
      nodeOf_fields, List.mem_append] at hField
    rcases hField with ⟨hTag | hDeclared, hAttribute⟩
    · rw [Category.tagFields, Option.mem_toList,
        Option.map_eq_some_iff] at hTag
      rcases hTag with ⟨tag, _, rfl⟩
      cases hAttribute
    · rw [declaredFields, List.mem_filterMap] at hDeclared
      rcases hDeclared with ⟨result, hMem, hSome⟩
      cases hSome
      rw [mem_successes_iff, List.mem_map] at hMem
      rcases hMem with ⟨⟨name, decl⟩, _, hResult⟩
      exact ⟨name, (declaresName_of_fieldOf hResult).1.symm⟩
  skipped := by
    intro node hNode name hSkipped
    rw [extractItems_nodes] at hNode
    rcases List.mem_map.mp hNode with ⟨d, _, rfl⟩
    rcases List.mem_map.mp ((leftOut_sublist _ _).subset hSkipped)
      with ⟨p, _, hName⟩
    exact ⟨p.1, hName⟩

------------------------------------------------------------
-- Other Names
------------------------------------------------------------

/-
  The text of a unit, read again: between quotes stand the texts
  of its schema.
-/
theorem blankStrings?_extractItems
    {source : String}
    {items : List Item}
    (hItems : items? source = some items) :
    blankStrings?
        (DecoderUnit.ofSchema (extractItems items).schema).text =
      some (String.join
          (((DecoderUnit.ofSchema
            (extractItems items).schema.unnamed).lines.map
              Line.blanked).map Line.text),
        (extractItems items).schema.literals) := by
  have hLines := (spelled_extractItems hItems).isCode_or_isComment
    (extractItems_consistent items)
  rw [DecoderUnit.text, blankStrings?_lines hLines,
    lines_ofSchema_unnamed, literals_lines]

/-
  Sources that are the same but for new names, all of them
  accepted in both, give units that are the same but for what
  stands between quotes.  That is read back as it stands in the
  schema: each name in documents at each place of it.
-/
theorem unit_of_renamed_items
    (source other : String)
    (items others : List Item)
    (hItems : items? source = some items)
    (hOthers : items? other = some others)
    (hRenamed : List.Forall₂ Item.Renamed items others)
    (hAccepted : NamesAccepted items)
    (hAccepted' : NamesAccepted others) :
    (extract source = .error .noNodes ∧
      extract other = .error .noNodes) ∨
    ∃ extraction extraction' code,
      extract source = .ok extraction ∧
        extract other = .ok extraction' ∧
        blankStrings? (DecoderUnit.ofSchema extraction.schema).text =
          some (code, extraction.schema.literals) ∧
        blankStrings? (DecoderUnit.ofSchema extraction'.schema).text =
          some (code, extraction'.schema.literals) := by
  have hSame := schema_unnamed hAccepted hAccepted' hRenamed
  have hEmpty :
      (extractItems items).schema.isEmpty =
        (extractItems others).schema.isEmpty := by
    have hNodes := congrArg Schema.isEmpty hSame
    simpa only [Schema.isEmpty, Schema.unnamed, List.isEmpty_map]
      using hNodes
  have hRead := blankStrings?_extractItems hItems
  have hRead' := blankStrings?_extractItems hOthers
  rw [← hSame] at hRead'
  unfold extract
  rw [hItems, hOthers]
  dsimp only
  rw [← hEmpty]
  cases (extractItems items).schema.isEmpty with
  | true => exact .inl ⟨rfl, rfl⟩
  | false => exact .inr ⟨_, _, _, rfl, rfl, hRead, hRead'⟩

/- A tiny source with a name for its variant and its field. -/
def namedSource
    (variant field : String) : String :=
  "#[serde(tag = \"expression_name\")]\nenum Expr \x7b "
    ++ "#[serde(rename = \"" ++ variant ++ "\")] Not(Not) \x7d\n"
    ++ "struct Not \x7b #[serde(rename = \"" ++ field ++ "\")] "
    ++ "is: bool \x7d\n"

theorem namedSource_unit :
    ∃ items others,
      items? (namedSource "not" "is") = some items ∧
        items? (namedSource "\x7b n \x7d" "∃") = some others ∧
        List.Forall₂ Item.Renamed items others ∧
        NamesAccepted items ∧ NamesAccepted others ∧
        ((extract (namedSource "not" "is") = .error .noNodes ∧
          extract (namedSource "\x7b n \x7d" "∃") = .error .noNodes) ∨
        ∃ extraction extraction' code,
          extract (namedSource "not" "is") = .ok extraction ∧
            extract (namedSource "\x7b n \x7d" "∃") =
              .ok extraction' ∧
            blankStrings?
                (DecoderUnit.ofSchema extraction.schema).text =
              some (code, extraction.schema.literals) ∧
            blankStrings?
                (DecoderUnit.ofSchema extraction'.schema).text =
              some (code, extraction'.schema.literals)) := by
  have hSources :
      ((items? (namedSource "not" "is")).bind fun items =>
        (items? (namedSource "\x7b n \x7d" "∃")).map fun others =>
          decide (List.Forall₂ Item.Renamed items others ∧
            (∀ w ∈ (extractItems items).warnings,
              w.reason.isOfName = false) ∧
            ∀ w ∈ (extractItems others).warnings,
              w.reason.isOfName = false)) = some true := by
    decide +kernel
  rcases Option.bind_eq_some_iff.mp hSources with
    ⟨items, hItems, hSources⟩
  rcases Option.map_eq_some_iff.mp hSources with
    ⟨others, hOthers, hSources⟩
  rcases of_decide_eq_true hSources with
    ⟨hRenamed, hWarnings, hWarnings'⟩
  have hAccepted := namesAccepted_of_warnings hWarnings
  have hAccepted' := namesAccepted_of_warnings hWarnings'
  exact ⟨items, others, hItems, hOthers, hRenamed, hAccepted,
    hAccepted',
    unit_of_renamed_items _ _ items others hItems hOthers hRenamed
      hAccepted hAccepted'⟩

end TreeWire
