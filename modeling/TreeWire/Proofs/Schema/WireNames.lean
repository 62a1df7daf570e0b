import Mathlib.Data.List.Forall2
import TreeWire.Proofs.Declaration.Equality
import TreeWire.Proofs.Schema.BlankedOptions
import TreeWire.Proofs.Schema.Conservation

/-
  Schemas apart from the names in documents.

  Two lists of items can be the same but for the text of new
  names.  Where all of these names are accepted, what is kept and
  what is left out does not depend on them: the schemas of both
  lists are the same when the names are erased.

  Key definitions include:
    * `SameButName`
    * `Item.Renamed`
    * `NamesAccepted`
    * `Schema.unnamed`

  Main statements:
    * `fieldOf_renamed`
    * `retainAll_unnamed`
    * `namesAccepted_of_warnings`
    * `schema_unnamed`
-/

namespace TreeWire

open Declaration

------------------------------------------------------------
-- Items with Other Names
------------------------------------------------------------

/-
  Whether attributes give the same options, but for the text of a
  new name.
-/
def SameButName
    (attributes others : List Attribute) : Prop :=
  (WireOptions.ofAttributes attributes).map WireOptions.unnamed =
    (WireOptions.ofAttributes others).map WireOptions.unnamed

namespace Declaration

/- The same field, which may have another name in documents. -/
structure FieldDecl.Renamed
    (f other : FieldDecl) : Prop where
  name : f.name = other.name
  type : f.type = other.type
  attributes :
    f.attributes.map Attribute.blanked =
      other.attributes.map Attribute.blanked

/- The same fields under other names. -/
inductive FieldsDecl.Renamed : FieldsDecl → FieldsDecl → Prop where
  | named {fields others}
      (h : List.Forall₂ FieldDecl.Renamed fields others) :
      Renamed (.named fields) (.named others)
  | tuple {fields others}
      (h : List.Forall₂ FieldDecl.Renamed fields others) :
      Renamed (.tuple fields) (.tuple others)
  | unit :
      Renamed .unit .unit

/- The same variant, which may have another name in documents. -/
structure VariantDecl.Renamed
    (v other : VariantDecl) : Prop where
  name : v.name = other.name
  fields : v.fields.Renamed other.fields
  attributes :
    v.attributes.map Attribute.blanked =
      other.attributes.map Attribute.blanked

/- The same structure, whose fields may have other names. -/
structure StructDecl.Renamed
    (d other : StructDecl) : Prop where
  attributes : d.attributes = other.attributes
  name : d.name = other.name
  isGeneric : d.isGeneric = other.isGeneric
  fields : d.fields.Renamed other.fields

/- The same enumeration, whose variants may have other names. -/
structure EnumDecl.Renamed
    (d other : EnumDecl) : Prop where
  attributes : d.attributes = other.attributes
  name : d.name = other.name
  isGeneric : d.isGeneric = other.isGeneric
  variants : List.Forall₂ VariantDecl.Renamed d.variants other.variants

/- The same item, but for the names of fields and variants. -/
inductive Item.Renamed : Item → Item → Prop where
  | structDecl {d other}
      (h : StructDecl.Renamed d other) :
      Renamed (.structDecl d) (.structDecl other)
  | enumDecl {d other}
      (h : EnumDecl.Renamed d other) :
      Renamed (.enumDecl d) (.enumDecl other)
  | other :
      Renamed .other .other

instance : DecidableRel FieldDecl.Renamed :=
  fun f other =>
    decidable_of_iff
      (f.name = other.name ∧ f.type = other.type ∧
        f.attributes.map Attribute.blanked =
          other.attributes.map Attribute.blanked)
      ⟨fun ⟨hName, hType, hSame⟩ => ⟨hName, hType, hSame⟩,
        fun ⟨hName, hType, hSame⟩ => ⟨hName, hType, hSame⟩⟩

theorem FieldsDecl.named_renamed_iff
    {fields others : List FieldDecl} :
    (FieldsDecl.named fields).Renamed (.named others) ↔
      List.Forall₂ FieldDecl.Renamed fields others :=
  ⟨fun h => by cases h; assumption, .named⟩

theorem FieldsDecl.tuple_renamed_iff
    {fields others : List FieldDecl} :
    (FieldsDecl.tuple fields).Renamed (.tuple others) ↔
      List.Forall₂ FieldDecl.Renamed fields others :=
  ⟨fun h => by cases h; assumption, .tuple⟩

instance : DecidableRel FieldsDecl.Renamed
  | .named _, .named _ =>
      decidable_of_iff _ FieldsDecl.named_renamed_iff.symm
  | .tuple _, .tuple _ =>
      decidable_of_iff _ FieldsDecl.tuple_renamed_iff.symm
  | .unit, .unit => isTrue .unit
  | .named _, .tuple _ | .named _, .unit | .tuple _, .named _
  | .tuple _, .unit | .unit, .named _ | .unit, .tuple _ =>
      isFalse nofun


instance : DecidableRel VariantDecl.Renamed :=
  fun v other =>
    decidable_of_iff
      (v.name = other.name ∧ v.fields.Renamed other.fields ∧
        v.attributes.map Attribute.blanked =
          other.attributes.map Attribute.blanked)
      ⟨fun ⟨hName, hFields, hSame⟩ => ⟨hName, hFields, hSame⟩,
        fun ⟨hName, hFields, hSame⟩ => ⟨hName, hFields, hSame⟩⟩

instance : DecidableRel StructDecl.Renamed :=
  fun d other =>
    decidable_of_iff
      (d.attributes = other.attributes ∧ d.name = other.name ∧
        d.isGeneric = other.isGeneric ∧ d.fields.Renamed other.fields)
      ⟨fun ⟨hAttributes, hName, hGeneric, hFields⟩ =>
          ⟨hAttributes, hName, hGeneric, hFields⟩,
        fun ⟨hAttributes, hName, hGeneric, hFields⟩ =>
          ⟨hAttributes, hName, hGeneric, hFields⟩⟩

instance : DecidableRel EnumDecl.Renamed :=
  fun d other =>
    decidable_of_iff
      (d.attributes = other.attributes ∧ d.name = other.name ∧
        d.isGeneric = other.isGeneric ∧
        List.Forall₂ VariantDecl.Renamed d.variants other.variants)
      ⟨fun ⟨hAttributes, hName, hGeneric, hVariants⟩ =>
          ⟨hAttributes, hName, hGeneric, hVariants⟩,
        fun ⟨hAttributes, hName, hGeneric, hVariants⟩ =>
          ⟨hAttributes, hName, hGeneric, hVariants⟩⟩

instance : DecidableRel Item.Renamed
  | .structDecl _, .structDecl _ =>
      decidable_of_iff _
        ⟨.structDecl, fun h => by cases h; assumption⟩
  | .enumDecl _, .enumDecl _ =>
      decidable_of_iff _ ⟨.enumDecl, fun h => by cases h; assumption⟩
  | .other, .other => isTrue .other
  | .structDecl _, .enumDecl _ | .structDecl _, .other
  | .enumDecl _, .structDecl _ | .enumDecl _, .other
  | .other, .structDecl _ | .other, .enumDecl _ => isFalse nofun

end Declaration

/- Whether a reason is about the name that something has. -/
def Reason.isOfName : Reason → Bool
  | .unusableName _ => true
  | .reservedName _ => true
  | .badAttribute e => e = directionsDiffer
  | _ => false

/- Whether attributes give a new name, or are wrong. -/
def MayGiveName
    (attributes : List Attribute) : Prop :=
  ∀ options,
    WireOptions.ofAttributes attributes = .ok options →
      options.rename.isSome = true

/- The names of types that a field of items may refer to. -/
def knownIn
    (items : List Item) : String → Bool :=
  knownName (nodeDecls items).1 (retainedSums items).1

/-
  Whether a new name, if attributes give one, is no reason to
  leave out what they stand at.
-/
def NameAccepted
    {α : Type}
    (attributes : List Attribute)
    (result : Except Reason α) : Prop :=
  MayGiveName attributes →
    ∀ reason, result = .error reason → reason.isOfName = false

/-
  Items whose new names are all accepted: there is no warning on
  one, neither at a variant of a sum nor at a field of a node type.
-/
structure NamesAccepted
    (items : List Item) : Prop where
  variants :
    ∀ d ∈ enumsOf items, (sumOf d).1.isSome = true →
      ∀ v ∈ d.variants, NameAccepted v.attributes (variantOf v)
  fields :
    ∀ d ∈ (nodeDecls items).1, ∀ p ∈ namedFieldsOf d.fields,
      NameAccepted p.2.attributes (fieldOf (knownIn items) p.1 p.2)

------------------------------------------------------------
-- Names Erased
------------------------------------------------------------

/- A field without its name in documents. -/
def FieldDescriptor.unnamed
    (f : FieldDescriptor) : FieldDescriptor :=
  { f with wireName := "" }

/- A variant without its name in documents. -/
def Variant.unnamed
    (v : Variant) : Variant :=
  { v with wireName := "" }

/- A sum type without the names of its variants. -/
def SumType.unnamed
    (sum : SumType) : SumType :=
  { sum with variants := sum.variants.map Variant.unnamed }

/- A node type without its name and those of its fields. -/
def NodeSchema.unnamed
    (node : NodeSchema) : NodeSchema :=
  { node with
    variantName := node.variantName.map fun _ => ""
    fields := node.fields.map FieldDescriptor.unnamed }

/- A schema without names in documents. -/
def Schema.unnamed
    (schema : Schema) : Schema :=
  ⟨schema.nodes.map NodeSchema.unnamed,
    schema.sums.map SumType.unnamed⟩

/- A member without the name of its variant. -/
def Member.unnamed
    (m : Member) : Member :=
  { m with wireName := "" }

------------------------------------------------------------
-- Fields and Variants
------------------------------------------------------------

/-
  Attributes that are the same but for the values of strings give
  the same options but for a name, unless the names for the two
  directions differ in one of them.
-/
theorem sameButName_of_blanked
    {attributes others : List Attribute}
    (h :
      attributes.map Attribute.blanked =
        others.map Attribute.blanked)
    (hOwn :
      WireOptions.ofAttributes attributes ≠
        .error (.badAttribute directionsDiffer))
    (hOther :
      WireOptions.ofAttributes others ≠
        .error (.badAttribute directionsDiffer)) :
    SameButName attributes others := by
  have hSame := (ofAttributes_blanked attributes).resolve_left hOwn
  have hSame' := (ofAttributes_blanked others).resolve_left hOther
  rw [h, ← hSame'] at hSame
  exact hSame

/-
  Options that are the same but for a name: both attributes are
  wrong for one reason, or both are right.
-/
theorem SameButName.cases
    {attributes others : List Attribute}
    (h : SameButName attributes others) :
    (∃ reason,
      WireOptions.ofAttributes attributes = .error reason ∧
        WireOptions.ofAttributes others = .error reason) ∨
    ∃ options other,
      WireOptions.ofAttributes attributes = .ok options ∧
        WireOptions.ofAttributes others = .ok other ∧
        options.unnamed = other.unnamed := by
  rw [SameButName] at h
  cases hOptions : WireOptions.ofAttributes attributes with
  | error reason =>
      rw [hOptions] at h
      exact .inl ⟨reason, rfl,
        Action.except_map_eq_error_iff.mp h.symm⟩
  | ok options =>
      rw [hOptions] at h
      rcases Action.except_map_eq_ok_iff.mp h.symm with
        ⟨other, hOther, hSame⟩
      exact .inr ⟨options, other, rfl, hOther, hSame.symm⟩

/-
  Options that are the same but for a name: both leave the name
  as it is, or both give a new one, which is the name in documents
  if it is usable.
-/
theorem wireName_unnamed
    {options other : WireOptions}
    {ident : Identifier}
    (h : options.unnamed = other.unnamed)
    (hUsable :
      ∀ name, options.rename = some name →
        WireOptions.isWireName name = true)
    (hOther :
      ∀ name, other.rename = some name →
        WireOptions.isWireName name = true) :
    options.wireName ident = .ok ident.word ∧
        other.wireName ident = .ok ident.word ∨
      ∃ name name',
        options.rename = some name ∧ other.rename = some name' ∧
          options.wireName ident = .ok name ∧
          other.wireName ident = .ok name' := by
  rcases (WireOptions.mk.injEq ..).mp h with ⟨hRename, _⟩
  cases hName : options.rename with
  | none =>
      rw [hName] at hRename
      have hName' := Option.map_eq_none_iff.mp hRename.symm
      left
      rw [WireOptions.wireName, WireOptions.wireName, hName, hName']
      exact ⟨rfl, rfl⟩
  | some name =>
      rw [hName] at hRename
      rcases Option.map_eq_some_iff.mp hRename.symm with
        ⟨name', hName', _⟩
      refine .inr ⟨name, name', rfl, hName', ?_, ?_⟩
      · rw [WireOptions.wireName, hName]
        exact if_pos (hUsable name hName)
      · rw [WireOptions.wireName, hName']
        exact if_pos (hOther name' hName')

/- A field of certain options. -/
theorem fieldOf_of_options
    {known : String → Bool}
    {ident : Identifier}
    {f : FieldDecl}
    {options : WireOptions}
    (h : WireOptions.ofAttributes f.attributes = .ok options) :
    fieldOf known ident f =
      if options.skip then .ok none
      else if options.flatten then .error .flattened
      else (options.wireName ident).bind fun wireName =>
        if (Category.ofTag? wireName).isSome then
          .error (.reservedName wireName)
        else
          (f.type.classify known).map fun found => some
            { name := ident.text
              wireName := wireName
              kind := found.kind
              boxed := found.boxed
              presence :=
                match found.optional, found.kind with
                | true, _ => .optional
                | false, .nestedArray _ => .defaulted
                | false, _ =>
                    if options.hasDefault then .defaulted
                    else .required
              discriminant := false } := by
  rw [fieldOf, h]
  change (if options.skip = true then _ else _) = _
  split
  · rfl
  · split
    · rfl
    · cases options.wireName ident with
      | error reason => rfl
      | ok wireName =>
          change (if _ then _ else _) = (if _ then _ else _)
          split
          · rfl
          · cases f.type.classify known <;> rfl

/- A new name that a field is not left out for can be used. -/
theorem usable_of_fieldOf
    {known : String → Bool}
    {ident : Identifier}
    {f : FieldDecl}
    {options : WireOptions}
    (hOptions : WireOptions.ofAttributes f.attributes = .ok options)
    (hKept : ¬ options.skip = true)
    (hPlain : ¬ options.flatten = true)
    (h : NameAccepted f.attributes (fieldOf known ident f))
    (name : String)
    (hName : options.rename = some name) :
    WireOptions.isWireName name = true ∧
      (Category.ofTag? name).isSome = false := by
  have hReason := h fun other hOther => by
    rw [hOptions] at hOther
    cases hOther
    rw [hName]
    rfl
  rw [fieldOf_of_options hOptions, if_neg hKept, if_neg hPlain,
    WireOptions.wireName, hName] at hReason
  dsimp only at hReason
  split at hReason
  · rename_i hUsable
    refine ⟨hUsable, Bool.eq_false_iff.mpr fun hReserved => ?_⟩
    cases hReason (.reservedName name) (if_pos hReserved)
  · cases hReason (.unusableName name) rfl

/- The names for the directions of an accepted field agree. -/
theorem directions_of_fieldOf
    {known : String → Bool}
    {ident : Identifier}
    {f : FieldDecl}
    (h : NameAccepted f.attributes (fieldOf known ident f)) :
    WireOptions.ofAttributes f.attributes ≠
      .error (.badAttribute directionsDiffer) := by
  intro hBad
  have hReason := h (fun options hOptions => by
      rw [hBad] at hOptions
      cases hOptions)
    (.badAttribute directionsDiffer) (by rw [fieldOf, hBad]; rfl)
  exact absurd hReason (by decide)

/-
  A field whose new name is accepted is kept or left out whatever
  the name is.
-/
theorem fieldOf_renamed
    {known : String → Bool}
    {ident : Identifier}
    {f other : FieldDecl}
    (h : f.Renamed other)
    (hField : NameAccepted f.attributes (fieldOf known ident f))
    (hOther :
      NameAccepted other.attributes (fieldOf known ident other)) :
    (fieldOf known ident f).map (Option.map FieldDescriptor.unnamed) =
      (fieldOf known ident other).map
        (Option.map FieldDescriptor.unnamed) := by
  have hNamed := sameButName_of_blanked h.attributes
    (directions_of_fieldOf hField) (directions_of_fieldOf hOther)
  rcases hNamed.cases with ⟨reason, hBad, hBad'⟩ |
    ⟨options, options', hOptions, hOptions', hSame⟩
  · rw [fieldOf, fieldOf, hBad, hBad']
    rfl
  rcases (WireOptions.mk.injEq ..).mp hSame with
    ⟨_, _, hDefault, hSkip, hFlatten⟩
  by_cases hKept : options.skip = true
  · rw [fieldOf_of_options hOptions, fieldOf_of_options hOptions',
      ← hSkip, if_pos hKept, if_pos hKept]
  by_cases hPlain : options.flatten = true
  · rw [fieldOf_of_options hOptions, fieldOf_of_options hOptions',
      ← hSkip, ← hFlatten, if_neg hKept, if_neg hKept, if_pos hPlain,
      if_pos hPlain]
  have hUsable := usable_of_fieldOf hOptions hKept hPlain hField
  have hUsable' := usable_of_fieldOf hOptions' (hSkip ▸ hKept)
    (hFlatten ▸ hPlain) hOther
  rw [fieldOf_of_options hOptions, fieldOf_of_options hOptions',
    ← hSkip, ← hFlatten, ← hDefault, ← h.type, if_neg hKept,
    if_neg hKept, if_neg hPlain, if_neg hPlain]
  rcases wireName_unnamed hSame (fun name hName =>
      (hUsable name hName).1) (fun name hName =>
      (hUsable' name hName).1) with ⟨hWord, hWord'⟩ |
    ⟨name, name', hName, hName', hNamed, hNamed'⟩
  · rw [hWord, hWord']
  · rw [hNamed, hNamed', Except.bind, Except.bind,
      (hUsable name hName).2, (hUsable' name' hName').2]
    cases f.type.classify known <;> rfl

/- A variant of certain options. -/
theorem variantOf_of_options
    {v : VariantDecl}
    {node : String}
    {options : WireOptions}
    (hNode : carriedNode? v.fields = some node)
    (h : WireOptions.ofAttributes v.attributes = .ok options) :
    variantOf v =
      (options.wireName v.name).map fun wireName =>
        ⟨v.name.text, wireName, node⟩ := by
  rw [variantOf, hNode, h]
  change options.wireName v.name >>= _ = _
  cases options.wireName v.name <;> rfl

/- A new name that a variant is not left out for can be used. -/
theorem usable_of_variantOf
    {v : VariantDecl}
    {node : String}
    {options : WireOptions}
    (hNode : carriedNode? v.fields = some node)
    (hOptions : WireOptions.ofAttributes v.attributes = .ok options)
    (h : NameAccepted v.attributes (variantOf v))
    (name : String)
    (hName : options.rename = some name) :
    WireOptions.isWireName name = true := by
  have hReason := h fun other hOther => by
    rw [hOptions] at hOther
    cases hOther
    rw [hName]
    rfl
  rw [variantOf_of_options hNode hOptions, WireOptions.wireName,
    hName] at hReason
  dsimp only at hReason
  split at hReason
  · assumption
  · cases hReason (.unusableName name) rfl

/- The same fields carry the same node. -/
theorem carriedNode?_renamed
    {fields others : FieldsDecl}
    (h : fields.Renamed others) :
    carriedNode? fields = carriedNode? others := by
  cases h with
  | named h => rfl
  | unit => rfl
  | tuple h =>
      cases h with
      | nil => rfl
      | cons hFirst hRest =>
          cases hRest with
          | cons hSecond hRest => rfl
          | nil => rw [carriedNode?, carriedNode?, hFirst.type]

/- The names for the directions of an accepted variant agree. -/
theorem directions_of_variantOf
    {v : VariantDecl}
    {node : String}
    (hNode : carriedNode? v.fields = some node)
    (h : NameAccepted v.attributes (variantOf v)) :
    WireOptions.ofAttributes v.attributes ≠
      .error (.badAttribute directionsDiffer) := by
  intro hBad
  have hReason := h (fun options hOptions => by
      rw [hBad] at hOptions
      cases hOptions)
    (.badAttribute directionsDiffer)
    (by rw [variantOf, hNode, hBad]; rfl)
  exact absurd hReason (by decide)

/-
  A variant whose new name is accepted carries its node whatever
  the name is.
-/
theorem variantOf_renamed
    {v other : VariantDecl}
    (h : v.Renamed other)
    (hVariant : NameAccepted v.attributes (variantOf v))
    (hOther : NameAccepted other.attributes (variantOf other)) :
    (variantOf v).map Variant.unnamed =
      (variantOf other).map Variant.unnamed := by
  have hNodes := carriedNode?_renamed h.fields
  cases hNode : carriedNode? v.fields with
  | none =>
      rw [variantOf, variantOf, ← hNodes, hNode]
  | some node =>
      have hNode' := hNodes.symm.trans hNode
      have hNamed := sameButName_of_blanked h.attributes
        (directions_of_variantOf hNode hVariant)
        (directions_of_variantOf hNode' hOther)
      rcases hNamed.cases with ⟨reason, hBad, hBad'⟩ |
        ⟨options, options', hOptions, hOptions', hSame⟩
      · rw [variantOf, variantOf, hNode, hNode', hBad, hBad']
        rfl
      rw [variantOf_of_options hNode hOptions,
        variantOf_of_options hNode' hOptions', ← h.name]
      rcases wireName_unnamed hSame
          (usable_of_variantOf hNode hOptions hVariant)
          (usable_of_variantOf hNode' hOptions' hOther) with
        ⟨hWord, hWord'⟩ | ⟨_, _, _, _, hNamed, hNamed'⟩
      · rw [hWord, hWord']
      · rw [hNamed, hNamed']
        rfl

------------------------------------------------------------
-- Lists of Results
------------------------------------------------------------

/- Related elements with the same image: the images are the same. -/
theorem map_eq_of_forall₂
    {α β γ : Type}
    {R : α → β → Prop}
    {f : α → γ}
    {g : β → γ}
    {as : List α}
    {bs : List β}
    (h : List.Forall₂ R as bs)
    (hEach : ∀ a ∈ as, ∀ b ∈ bs, R a b → f a = g b) :
    as.map f = bs.map g := by
  induction h with
  | nil => rfl
  | cons hFirst hRest ih =>
      rw [List.map_cons, List.map_cons,
        hEach _ List.mem_cons_self _ List.mem_cons_self hFirst,
        ih fun a ha b hb =>
          hEach a (List.mem_cons_of_mem _ ha) b
            (List.mem_cons_of_mem _ hb)]

theorem successes_map
    {ε α β : Type}
    (f : α → β)
    (results : List (Except ε α)) :
    successes (results.map (Except.map f)) =
      (successes results).map f := by
  induction results with
  | nil => rfl
  | cons result results ih =>
      cases result with
      | error e => exact ih
      | ok a => exact congrArg (f a :: ·) ih

/- What is left out does not depend on how the rest is described. -/
theorem leftOut_map
    (f : FieldDescriptor → FieldDescriptor)
    (results :
      List (String × Except Reason (Option FieldDescriptor))) :
    leftOut (results.map fun (name, result) =>
      (name, result.map (Option.map f))) = leftOut results := by
  induction results with
  | nil => rfl
  | cons result results ih =>
      rcases result with ⟨name, _ | _ | found⟩
      · exact congrArg (name :: ·) ih
      · exact congrArg (name :: ·) ih
      · exact ih

theorem filterMap_id_map
    {α β : Type}
    (f : α → β)
    (found : List (Option α)) :
    (found.map (Option.map f)).filterMap id =
      (found.filterMap id).map f := by
  rw [List.filterMap_map, List.map_filterMap]
  rfl

------------------------------------------------------------
-- Passes over Sums
------------------------------------------------------------

/- The category and the tag of the sum that an enumeration is. -/
def sumTag?
    (d : EnumDecl) : Option (Category × String) :=
  match WireOptions.ofAttributes d.attributes with
  | .error _ => none
  | .ok options => do
      let tag ← options.tag
      let category ← Category.ofTag? tag
      if d.isGeneric then none else some (category, tag)

/- What an enumeration says of itself, and what its variants say. -/
theorem sumOf_fst
    (d : EnumDecl) :
    (sumOf d).1 =
      (sumTag? d).map fun (category, tag) =>
        ⟨d.name, category, tag,
          successes (d.variants.map variantOf)⟩ := by
  rw [sumOf, sumTag?]
  cases WireOptions.ofAttributes d.attributes with
  | error reason => rfl
  | ok options =>
      dsimp only [Option.bind_eq_bind]
      cases options.tag with
      | none => rfl
      | some tag =>
          dsimp only [Option.bind_some]
          cases Category.ofTag? tag with
          | none => rfl
          | some category =>
              dsimp only [Option.bind_some]
              split
              · rfl
              · rw [List.map_map]
                rfl

/- A sum whose variants have accepted names, without the names. -/
theorem sumOf_renamed
    {d other : EnumDecl}
    (h : d.Renamed other)
    (hDecl :
      (sumOf d).1.isSome = true →
        ∀ v ∈ d.variants, NameAccepted v.attributes (variantOf v))
    (hOther :
      (sumOf other).1.isSome = true →
        ∀ v ∈ other.variants,
          NameAccepted v.attributes (variantOf v)) :
    (sumOf d).1.map SumType.unnamed =
      (sumOf other).1.map SumType.unnamed := by
  have hTag : sumTag? d = sumTag? other := by
    rw [sumTag?, sumTag?, h.attributes, h.isGeneric]
  rw [sumOf_fst, Option.isSome_map] at hDecl hOther
  rw [sumOf_fst, sumOf_fst, ← hTag, Option.map_map, Option.map_map]
  cases hFound : sumTag? d with
  | none => rfl
  | some found =>
      have hIsSome : (sumTag? d).isSome = true := by
        rw [hFound]
        rfl
      have hVariants :
          d.variants.map (Except.map Variant.unnamed ∘ variantOf) =
            other.variants.map
              (Except.map Variant.unnamed ∘ variantOf) :=
        map_eq_of_forall₂ h.variants fun v hMem v' hMem' hSame =>
          variantOf_renamed hSame (hDecl hIsSome v hMem)
            (hOther (hTag ▸ hIsSome) v' hMem')
      simp only [Option.map_some, Function.comp_apply,
        SumType.unnamed, ← successes_map, List.map_map, hVariants,
        h.name]

/- The same sums are collected, whatever the names are. -/
theorem collectSums_unnamed
    {found found' : List SumType}
    {decls others : List EnumDecl}
    (hFound :
      found.map SumType.unnamed = found'.map SumType.unnamed)
    (h :
      (decls.map fun d => (sumOf d).1.map SumType.unnamed) =
        others.map fun d => (sumOf d).1.map SumType.unnamed) :
    (collectSums found decls).1.map SumType.unnamed =
      (collectSums found' others).1.map SumType.unnamed := by
  induction decls generalizing found found' others with
  | nil =>
      rw [List.map_eq_nil_iff.mp h.symm]
      exact hFound
  | cons d decls ih =>
      rcases List.map_eq_cons_iff.mp h.symm with
        ⟨other, rest, rfl, hFirst, hRest⟩
      have hAny (category : Category) :
          (found.any fun s => s.category = category) =
            found'.any fun s => s.category = category := by
        have hErased (sums : List SumType) :
            (sums.any fun s => s.category = category) =
              (sums.map SumType.unnamed).any
                fun s => s.category = category := by
          rw [List.any_map]
          rfl
        rw [hErased, hFound, ← hErased]
      dsimp only at hFirst
      rw [collectSums, collectSums]
      rcases hSum : sumOf d with ⟨_ | sum, warnings⟩ <;>
        rcases hSum' : sumOf other with ⟨_ | sum', warnings'⟩ <;>
        rw [hSum, hSum'] at hFirst
      · exact ih hFound hRest.symm
      · cases hFirst
      · cases hFirst
      · have hSame : sum'.unnamed = sum.unnamed :=
          Option.some.inj hFirst
        rcases (SumType.mk.injEq ..).mp hSame with ⟨_, hCategory, _⟩
        dsimp only
        rw [hAny, hCategory]
        split
        · exact ih hFound hRest.symm
        · refine ih ?_ hRest.symm
          rw [List.map_append, List.map_append, hFound]
          exact congrArg (_ ++ [·]) hSame.symm

section

variable (declared : String → Bool)

/- Variants are kept whatever their names are. -/
theorem retainVariants_unnamed
    (sum : SumType)
    (members : List Member)
    (variants : List Variant) :
    (retainVariants declared sum.unnamed (members.map Member.unnamed)
        (variants.map Variant.unnamed)).1 =
        (retainVariants declared sum members variants).1.map
          Variant.unnamed ∧
      (retainVariants declared sum.unnamed
        (members.map Member.unnamed)
        (variants.map Variant.unnamed)).2.1 =
        (retainVariants declared sum members variants).2.1.map
          Member.unnamed := by
  induction variants generalizing members with
  | nil => exact ⟨rfl, rfl⟩
  | cons v variants ih =>
      have hNode : v.unnamed.node = v.node := rfl
      have hTaken :
          ((members.map Member.unnamed).any fun m =>
            m.node = v.node) =
            members.any fun m => m.node = v.node := by
        rw [List.any_map]
        rfl
      have hAdded :=
        ih (members ++ [⟨v.node, sum.category, v.wireName⟩])
      rw [List.map_append] at hAdded
      rw [List.map_cons, retainVariants, retainVariants, hNode, hTaken]
      dsimp only
      split
      · exact ih members
      · split
        · exact ih members
        · exact ⟨congrArg (v.unnamed :: ·) hAdded.1, hAdded.2⟩

/- Sums keep their variants whatever the names are. -/
theorem retainAll_unnamed
    (members : List Member)
    (sums : List SumType) :
    (retainAll declared (members.map Member.unnamed)
        (sums.map SumType.unnamed)).1 =
        (retainAll declared members sums).1.map SumType.unnamed ∧
      (retainAll declared (members.map Member.unnamed)
        (sums.map SumType.unnamed)).2.1 =
        (retainAll declared members sums).2.1.map Member.unnamed := by
  induction sums generalizing members with
  | nil => exact ⟨rfl, rfl⟩
  | cons sum sums ih =>
      have hOwn :=
        retainVariants_unnamed declared sum members sum.variants
      have hRest :=
        ih (retainVariants declared sum members sum.variants).2.1
      rw [← hOwn.2] at hRest
      rw [List.map_cons, retainAll, retainAll]
      refine ⟨?_, hRest.2⟩
      refine congrArg₂ List.cons ?_ hRest.1
      exact congrArg
        (fun variants => { sum with variants := variants }) hOwn.1

end

------------------------------------------------------------
-- Passes over Structures
------------------------------------------------------------

theorem structProblem?_renamed
    {d other : StructDecl}
    (h : d.Renamed other) :
    structProblem? d = structProblem? other := by
  have hFields := h.fields
  rw [structProblem?, structProblem?, h.isGeneric]
  generalize d.fields = fields at hFields ⊢
  generalize other.fields = fields' at hFields ⊢
  cases hFields <;> rfl

theorem insertStruct_renamed
    {d other : StructDecl}
    {structs others : List StructDecl}
    (h : d.Renamed other)
    (hStructs : List.Forall₂ StructDecl.Renamed structs others) :
    List.Forall₂ StructDecl.Renamed (insertStruct d structs)
      (insertStruct other others) := by
  induction hStructs with
  | nil => exact .cons h .nil
  | cons hFirst hRest ih =>
      rw [insertStruct, insertStruct, hFirst.name, h.name]
      split
      · exact .cons h hRest
      · exact .cons hFirst ih

/- The same structures are node types, whatever the names are. -/
theorem collectStructs_renamed
    {decls others : List StructDecl}
    (h : List.Forall₂ StructDecl.Renamed decls others) :
    List.Forall₂ StructDecl.Renamed (collectStructs decls).1
      (collectStructs others).1 := by
  have hFilter := List.rel_filter
    (p := fun d => (structProblem? d).isNone)
    (q := fun d => (structProblem? d).isNone)
    (fun d other hSame => by
      dsimp only
      rw [structProblem?_renamed hSame]) h
  refine List.rel_foldl (P := List.Forall₂ StructDecl.Renamed)
    (R := StructDecl.Renamed) ?_ .nil hFilter
  intro _ _ hStructs _ _ hDecl
  exact insertStruct_renamed hDecl hStructs

/- The same fields have the same names. -/
theorem namedFieldsOf_renamed
    {fields others : FieldsDecl}
    (h : fields.Renamed others) :
    List.Forall₂
      (fun p q => p.1 = q.1 ∧ p.2.Renamed q.2)
      (namedFieldsOf fields) (namedFieldsOf others) := by
  cases h with
  | tuple h => exact .nil
  | unit => exact .nil
  | named h =>
      exact List.rel_filterMap (fun f other hSame => by
        rw [← hSame.name]
        cases f.name with
        | none => exact .none
        | some name => exact .some ⟨rfl, hSame⟩) h

/- A node type without names comes of members and fields without. -/
theorem nodeOf_unnamed
    (known : String → Bool)
    (members : List Member)
    (d : StructDecl) :
    (nodeOf known members d).1.unnamed =
      let member :=
        (members.find? fun m => m.node = d.name).map Member.unnamed
      let fields := (namedFieldsOf d.fields).map fun p =>
        (p.1.text, (fieldOf known p.1 p.2).map
          (Option.map FieldDescriptor.unnamed))
      let category := (member.map Member.category).getD .other
      { name := d.name
        category := category
        variantName := member.map fun _ => ""
        fields :=
          category.tagFields.map FieldDescriptor.unnamed ++
            (successes (fields.map (·.2))).filterMap id
        skipped := leftOut fields } := by
  have hSkipped :=
    leftOut_map FieldDescriptor.unnamed
      ((namedFieldsOf d.fields).map fun p =>
        (p.1.text, fieldOf known p.1 p.2))
  have hKept :
      (declaredFields known d).map FieldDescriptor.unnamed =
        (successes ((namedFieldsOf d.fields).map fun p =>
          (fieldOf known p.1 p.2).map
            (Option.map FieldDescriptor.unnamed))).filterMap id := by
    rw [declaredFields, ← filterMap_id_map, ← successes_map,
      List.map_map]
    rfl
  rw [List.map_map] at hSkipped
  rw [NodeSchema.unnamed, nodeOf_fields, List.map_append, hKept]
  dsimp only [Function.comp_def] at hSkipped ⊢
  rw [List.map_map, hSkipped, nodeOf]
  cases members.find? fun m => m.node = d.name <;> rfl

/-
  A node type whose fields have accepted names, without the names
  of members and fields.
-/
theorem nodeOf_renamed
    {known : String → Bool}
    {members members' : List Member}
    {d other : StructDecl}
    (hMembers :
      members.map Member.unnamed = members'.map Member.unnamed)
    (h : d.Renamed other)
    (hDecl :
      ∀ p ∈ namedFieldsOf d.fields,
        NameAccepted p.2.attributes (fieldOf known p.1 p.2))
    (hOther :
      ∀ p ∈ namedFieldsOf other.fields,
        NameAccepted p.2.attributes (fieldOf known p.1 p.2)) :
    (nodeOf known members d).1.unnamed =
      (nodeOf known members' other).1.unnamed := by
  have hFind :
      (members.find? fun m => m.node = d.name).map Member.unnamed =
        (members'.find? fun m => m.node = d.name).map
          Member.unnamed := by
    have hErased (members : List Member) :
        (members.find? fun m => m.node = d.name).map Member.unnamed =
          (members.map Member.unnamed).find?
            fun m => m.node = d.name := by
      rw [List.find?_map]
      rfl
    rw [hErased members, hErased members', hMembers]
  have hFields :
      ((namedFieldsOf d.fields).map fun p =>
          (p.1.text, (fieldOf known p.1 p.2).map
            (Option.map FieldDescriptor.unnamed))) =
        (namedFieldsOf other.fields).map fun p =>
          (p.1.text, (fieldOf known p.1 p.2).map
            (Option.map FieldDescriptor.unnamed)) :=
    map_eq_of_forall₂ (namedFieldsOf_renamed h.fields)
      fun p hMem q hMem' hSame => by
        have hOwn := hOther q hMem'
        rw [← hSame.1] at hOwn ⊢
        rw [fieldOf_renamed hSame.2 (hDecl p hMem) hOwn]
  rw [nodeOf_unnamed, nodeOf_unnamed, ← h.name, hFind, hFields]

------------------------------------------------------------
-- Warnings on Names
------------------------------------------------------------

/- There is a warning on every part that failed. -/
theorem mem_failures_of_error
    {α : Type}
    {node field : String}
    {reason : Reason}
    {results : List (String × Except Reason α)}
    (h : (field, .error reason) ∈ results) :
    ⟨node, some field, reason⟩ ∈ failures node results := by
  induction results with
  | nil => cases h
  | cons result results ih =>
      rcases List.mem_cons.mp h with rfl | hRest
      · exact List.mem_cons_self
      · rcases result with ⟨name, _ | found⟩
        · exact List.mem_cons_of_mem _ (ih hRest)
        · exact ih hRest

/- The warnings on each enumeration are collected. -/
theorem subset_collectSums_snd
    {found : List SumType}
    {decls : List EnumDecl}
    {d : EnumDecl}
    (h : d ∈ decls) :
    (sumOf d).2 ⊆ (collectSums found decls).2 := by
  induction decls generalizing found with
  | nil => cases h
  | cons first decls ih =>
      rcases collectSums_cons found first decls with
        ⟨after, own, hStep, hRun⟩
      rw [hRun]
      rcases List.mem_cons.mp h with rfl | hRest
      · apply List.Subset.trans _ (List.subset_append_left _ _)
        cases hStep with
        | noSum hSum => rw [hSum]; exact List.Subset.refl _
        | taken hSum => rw [hSum]; exact List.subset_append_left _ _
        | added hSum => rw [hSum]; exact List.Subset.refl _
      · exact List.Subset.trans (ih hRest) (List.subset_append_right _ _)

------------------------------------------------------------
-- Items
------------------------------------------------------------

section

variable {items others : List Item}

theorem enumsOf_renamed
    (h : List.Forall₂ Item.Renamed items others) :
    List.Forall₂ EnumDecl.Renamed (enumsOf items) (enumsOf others) :=
  List.rel_filterMap (fun _ _ hSame => by
    cases hSame with
    | enumDecl h => exact .some h
    | structDecl h => exact .none
    | other => exact .none) h

theorem structsOf_renamed
    (h : List.Forall₂ Item.Renamed items others) :
    List.Forall₂ StructDecl.Renamed (structsOf items)
      (structsOf others) :=
  List.rel_filterMap (fun _ _ hSame => by
    cases hSame with
    | enumDecl h => exact .none
    | structDecl h => exact .some h
    | other => exact .none) h

/- The same structures are declared. -/
theorem names_nodeDecls
    (h : List.Forall₂ Item.Renamed items others) :
    (nodeDecls items).1.map StructDecl.name =
      (nodeDecls others).1.map StructDecl.name :=
  map_eq_of_forall₂ (collectStructs_renamed (structsOf_renamed h))
    fun _ _ _ _ hSame => hSame.name

theorem declared_renamed
    (h : List.Forall₂ Item.Renamed items others) :
    (fun name => (nodeDecls items).1.any fun d => d.name = name) =
      fun name => (nodeDecls others).1.any fun d => d.name = name := by
  have hErased (structs : List StructDecl) (name : String) :
      (structs.any fun d => d.name = name) =
        (structs.map StructDecl.name).any fun own => own = name := by
    rw [List.any_map]
    rfl
  funext name
  rw [hErased, hErased, names_nodeDecls h]

/- No warning on a name at all: every new name is accepted. -/
theorem namesAccepted_of_warnings
    (h :
      ∀ w ∈ (extractItems items).warnings,
        w.reason.isOfName = false) :
    NamesAccepted items := by
  rw [extractItems_warnings] at h
  constructor
  · intro d hMem hSum v hVariant _ reason hBad
    rcases hOwn : sumOf d with ⟨found, warnings⟩
    rw [hOwn] at hSum
    rcases Option.isSome_iff_exists.mp hSum with ⟨sum, rfl⟩
    have hFailure :
        ⟨d.name, some v.name.text, reason⟩ ∈ (sumOf d).2 := by
      rw [hOwn, (sumOf_some hOwn).2.2]
      apply mem_failures_of_error
      exact List.mem_map.mpr ⟨v, hVariant, by rw [hBad]⟩
    apply h ⟨d.name, some v.name.text, reason⟩
    exact List.mem_append_left _ (List.mem_append_left _
      (List.mem_append_left _ (subset_collectSums_snd hMem hFailure)))
  · intro d hMem p hField _ reason hBad
    apply h ⟨d.name, some p.1.text, reason⟩
    refine List.mem_append_right _
      (List.mem_flatMap.mpr ⟨d, hMem, ?_⟩)
    apply mem_failures_of_error
    refine List.mem_map.mpr ⟨p, hField, ?_⟩
    rw [← hBad]
    rfl

variable (hItems : NamesAccepted items)
variable (hOthers : NamesAccepted others)

include hItems hOthers

/- The sums keep the same variants. -/
theorem retainedSums_unnamed
    (h : List.Forall₂ Item.Renamed items others) :
    (retainedSums items).1.map SumType.unnamed =
        (retainedSums others).1.map SumType.unnamed ∧
      (retainedSums items).2.1.map Member.unnamed =
        (retainedSums others).2.1.map Member.unnamed := by
  have hFound :
      (foundSums items).1.map SumType.unnamed =
        (foundSums others).1.map SumType.unnamed :=
    collectSums_unnamed rfl (map_eq_of_forall₂ (enumsOf_renamed h)
      fun d hMem d' hMem' hSame =>
        sumOf_renamed hSame (hItems.variants d hMem)
          (hOthers.variants d' hMem'))
  have hErased (declared : String → Bool) (sums : List SumType) :
      (retainAll declared [] sums).1.map SumType.unnamed =
          (retainAll declared [] (sums.map SumType.unnamed)).1 ∧
        (retainAll declared [] sums).2.1.map Member.unnamed =
          (retainAll declared [] (sums.map SumType.unnamed)).2.1 :=
    (retainAll_unnamed declared [] sums).imp Eq.symm Eq.symm
  rw [retainedSums, retainedSums, (hErased _ (foundSums items).1).1,
    (hErased _ (foundSums items).1).2,
    (hErased _ (foundSums others).1).1,
    (hErased _ (foundSums others).1).2, hFound, declared_renamed h]
  exact ⟨rfl, rfl⟩

/- The same names are those of types. -/
theorem knownIn_renamed
    (h : List.Forall₂ Item.Renamed items others) :
    knownIn items = knownIn others := by
  have hErased (sums : List SumType) (name : String) :
      (sums.any fun s => s.name = name) =
        (sums.map SumType.unnamed).any fun s => s.name = name := by
    rw [List.any_map]
    rfl
  funext name
  refine congrArg₂ (· || ·) (congrFun (declared_renamed h) name) ?_
  rw [hErased, (retainedSums_unnamed hItems hOthers h).1, ← hErased]

/-
  Items that are the same but for accepted names have the same
  schema but for the names.
-/
theorem schema_unnamed
    (h : List.Forall₂ Item.Renamed items others) :
    (extractItems items).schema.unnamed =
      (extractItems others).schema.unnamed := by
  have hSums := retainedSums_unnamed hItems hOthers h
  have hKnown := knownIn_renamed hItems hOthers h
  have hNodes :
      ((nodeDecls items).1.map fun d =>
          (nodeOf (knownIn items) (retainedSums items).2.1
            d).1.unnamed) =
        (nodeDecls others).1.map fun d =>
          (nodeOf (knownIn others) (retainedSums others).2.1
            d).1.unnamed :=
    map_eq_of_forall₂ (collectStructs_renamed (structsOf_renamed h))
      fun d hMem d' hMem' hSame => by
        have hDecl := hItems.fields d hMem
        rw [hKnown] at hDecl ⊢
        exact nodeOf_renamed hSums.2 hSame hDecl
          (hOthers.fields d' hMem')
  rw [Schema.unnamed, Schema.unnamed, extractItems_nodes,
    extractItems_nodes, List.map_map, List.map_map]
  exact congrArg₂ Schema.mk hNodes hSums.1

end

end TreeWire
