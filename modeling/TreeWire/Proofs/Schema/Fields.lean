import TreeWire.Proofs.Schema.FieldTypes
import TreeWire.Schema.Extraction

/-
  The fields and variants that declarations stand for.

  A name in documents is the word of an identifier or a new name
  that has been checked, so it holds no character that a text
  would have to escape.  A field of a schema comes from one
  declaration: it is no discriminant, has no reserved name, and
  its target is a known name.

  Key definitions include:
    * `PlainName`
    * `DeclaresName`
    * `FieldDescriptor.WellFormed`
    * `FieldDescriptor.classified`

  Main statements:
    * `plainName_of_isWireName`
    * `isWireName_word`
    * `isWireName_of_wireName`
    * `fieldOf_eq_ok_some`
    * `wellFormed_of_fieldOf`
    * `classify_of_fieldOf`
    * `isWireName_of_variantOf`
    * `declaresName_of_variantOf`
    * `declaresName_of_fieldOf`
    * `fieldOf_eq_none_iff`
-/

namespace TreeWire

open Declaration

------------------------------------------------------------
-- Words in Documents
------------------------------------------------------------

/- Whether a table starts behind the last control character. -/
def CharTable.isBeyondControls
    (table : CharTable) : Bool :=
  table.toList.all fun run => 0xa0 ≤ run.first

theorem isBeyondControls_identStartTable :
    CharTable.isBeyondControls identStartTable = true := by
  decide +kernel

theorem isBeyondControls_identExtendTable :
    CharTable.isBeyondControls identExtendTable = true := by
  decide +kernel

theorem le_of_isBeyondControls
    {table : CharTable}
    {c : Char}
    (hTable : table.isBeyondControls = true)
    (h : table.holds c = true) :
    0xa0 ≤ c.toNat := by
  rw [CharTable.holds, ← Array.any_toList, List.any_eq_true] at h
  rcases h with ⟨run, hMem, hRun⟩
  have hFirst := List.all_eq_true.mp hTable run hMem
  simp only [CharRun.holds, Bool.and_eq_true,
    decide_eq_true_eq] at hRun hFirst
  omega

theorem isWireChar_iff
    {c : Char} :
    WireOptions.isWireChar c = true ↔
      c.toNat ≠ 0x22 ∧ c.toNat ≠ 0x5c ∧ 0x20 ≤ c.toNat ∧
        ¬ (0x7f ≤ c.toNat ∧ c.toNat ≤ 0x9f) := by
  have hQuote : c = '"' ↔ c.toNat = 0x22 := Char.toNat_inj.symm
  have hSlash : c = '\\' ↔ c.toNat = 0x5c := Char.toNat_inj.symm
  simp only [WireOptions.isWireChar, ne_eq, hQuote, hSlash,
    Bool.and_eq_true, Bool.not_eq_true', Bool.and_eq_false_iff,
    decide_eq_true_eq, decide_eq_false_iff_not]
  omega

/-
  A name that a text holds as it stands: it is not empty, and has
  no quote, no backslash and no control character.
-/
structure PlainName
    (name : String) : Prop where
  nonempty : name ≠ ""
  unquoted : '"' ∉ name.toList
  unescaped : '\\' ∉ name.toList
  uncontrolled :
    ∀ c ∈ name.toList,
      ¬ (c.toNat < 0x20 ∨ 0x7f ≤ c.toNat ∧ c.toNat ≤ 0x9f)

theorem plainName_of_isWireName
    {name : String}
    (h : WireOptions.isWireName name = true) :
    PlainName name := by
  rw [WireOptions.isWireName, Bool.and_eq_true,
    List.all_eq_true] at h
  rcases h with ⟨hNonempty, hChars⟩
  refine ⟨by simpa using hNonempty, ?_, ?_, ?_⟩
  · intro hQuote
    exact (isWireChar_iff.mp (hChars _ hQuote)).1 rfl
  · intro hSlash
    exact (isWireChar_iff.mp (hChars _ hSlash)).2.1 rfl
  · intro c hMem
    have hChar := isWireChar_iff.mp (hChars c hMem)
    omega

/- Letters and digits by their code points. -/
theorem toNat_of_isAlphanum
    {c : Char}
    (h : c.isAlphanum = true) :
    0x41 ≤ c.toNat ∧ c.toNat ≤ 0x5a ∨
      0x61 ≤ c.toNat ∧ c.toNat ≤ 0x7a ∨
      0x30 ≤ c.toNat ∧ c.toNat ≤ 0x39 := by
  have hRange :
      ∀ {low high : UInt32},
        low ≤ c.val ∧ c.val ≤ high →
          low.toNat ≤ c.toNat ∧ c.toNat ≤ high.toNat :=
    fun hBoth => hBoth.imp UInt32.le_iff_toNat_le.mp
      UInt32.le_iff_toNat_le.mp
  have hEach :
      ∀ {low high : UInt32},
        (decide (low ≤ c.val) && decide (c.val ≤ high)) = true →
          low ≤ c.val ∧ c.val ≤ high :=
    fun hBoth => ((Bool.and_eq_true _ _).mp hBoth).imp
      of_decide_eq_true of_decide_eq_true
  rcases (Bool.or_eq_true _ _).mp h with hAlpha | hDigit
  · rcases (Bool.or_eq_true _ _).mp hAlpha with hUpper | hLower
    · exact .inl (hRange (of_decide_eq_true hUpper))
    · exact .inr (.inl (hRange (hEach hLower)))
  · exact .inr (.inr (hRange (hEach hDigit)))

/- A letter, a digit or an underscore stands for itself. -/
theorem isWireChar_of_ascii
    {c : Char}
    (h : c.isAlphanum = true ∨ c = '_') :
    WireOptions.isWireChar c = true := by
  rw [isWireChar_iff]
  rcases h with hAlpha | rfl
  · have hRange := toNat_of_isAlphanum hAlpha
    omega
  · decide

theorem isWireChar_of_beyond
    {c : Char}
    (h : 0xa0 ≤ c.toNat) :
    WireOptions.isWireChar c = true := by
  rw [isWireChar_iff]
  omega

theorem isWireChar_of_isIdentStart
    {c : Char}
    (h : isIdentStart c = true) :
    WireOptions.isWireChar c = true := by
  rw [isIdentStart] at h
  split at h
  · apply isWireChar_of_ascii
    simp only [Bool.or_eq_true, beq_iff_eq] at h
    rcases h with hAlpha | hLine
    · exact .inl (by rw [Char.isAlphanum, hAlpha, Bool.true_or])
    · exact .inr hLine
  · exact isWireChar_of_beyond
      (le_of_isBeyondControls isBeyondControls_identStartTable h)

theorem isWireChar_of_isIdentContinue
    {c : Char}
    (h : isIdentContinue c = true) :
    WireOptions.isWireChar c = true := by
  rw [isIdentContinue] at h
  split at h
  · apply isWireChar_of_ascii
    simpa only [Bool.or_eq_true, beq_iff_eq] using h
  · apply isWireChar_of_beyond
    rw [Bool.or_eq_true] at h
    rcases h with hStart | hExtend
    · exact le_of_isBeyondControls isBeyondControls_identStartTable
        hStart
    · exact le_of_isBeyondControls isBeyondControls_identExtendTable
        hExtend

/- The word of an identifier can be a name in documents. -/
theorem isWireName_word
    (name : Identifier) :
    WireOptions.isWireName name.word = true := by
  have hWord := name.isWord
  rw [WireOptions.isWireName, Bool.and_eq_true]
  generalize hChars : name.word.toList = cs at hWord ⊢
  cases cs with
  | nil => cases hWord
  | cons c cs =>
      rw [isIdentWord, Bool.and_eq_true, List.all_eq_true] at hWord
      constructor
      · have hNonempty : name.word ≠ "" := by
          intro hEmpty
          rw [hEmpty] at hChars
          cases hChars
        simpa using hNonempty
      · rw [List.all_cons, Bool.and_eq_true, List.all_eq_true]
        exact ⟨isWireChar_of_isIdentStart hWord.1, fun c hMem =>
          isWireChar_of_isIdentContinue (hWord.2 c hMem)⟩

/- A name in documents is a word or has been checked. -/
theorem isWireName_of_wireName
    {options : WireOptions}
    {ident : Identifier}
    {name : String}
    (h : options.wireName ident = .ok name) :
    WireOptions.isWireName name = true := by
  rw [WireOptions.wireName] at h
  split at h
  · cases h
    exact isWireName_word ident
  · split at h
    · rename_i hChecked
      cases h
      exact hChecked
    · cases h

------------------------------------------------------------
-- Variants
------------------------------------------------------------

theorem isWireName_of_variantOf
    {decl : VariantDecl}
    {v : Variant}
    (h : variantOf decl = .ok v) :
    WireOptions.isWireName v.wireName = true := by
  rw [variantOf] at h
  split at h
  · cases h
  · simp only [Action.except_bind_eq_ok_iff] at h
    rcases h with ⟨options, _, name, hName, hVariant⟩
    cases hVariant
    exact isWireName_of_wireName hName

/-
  Whether the options in attributes give what an identifier names
  a name in documents.
-/
def DeclaresName
    (attributes : List Attribute)
    (ident : Identifier)
    (wireName : String) : Prop :=
  ∃ options,
    WireOptions.ofAttributes attributes = .ok options ∧
      options.wireName ident = .ok wireName

/- A variant has its identifier and its declared name. -/
theorem declaresName_of_variantOf
    {decl : VariantDecl}
    {v : Variant}
    (h : variantOf decl = .ok v) :
    v.name = decl.name.text ∧
      DeclaresName decl.attributes decl.name v.wireName := by
  rw [variantOf] at h
  split at h
  · cases h
  · simp only [Action.except_bind_eq_ok_iff] at h
    rcases h with ⟨options, hOptions, name, hName, hVariant⟩
    cases hVariant
    exact ⟨rfl, options, hOptions, hName⟩

theorem mem_successes_iff
    {ε α : Type}
    {results : List (Except ε α)}
    {a : α} :
    a ∈ successes results ↔ .ok a ∈ results := by
  induction results with
  | nil => simp [successes]
  | cons r results ih =>
      cases r with
      | ok b => simp [successes, ih]
      | error e => simp [successes, ih]

------------------------------------------------------------
-- Fields
------------------------------------------------------------

/- The name of the type that a field holds, if it is no scalar. -/
def FieldKind.target? : FieldKind → Option String
  | .nested name => some name
  | .nestedArray (.node name) => some name
  | _ => none

/-
  What a field of a schema is, apart from a discriminant, given
  the names that it may refer to.
-/
structure FieldDescriptor.WellFormed
    (known : String → Bool)
    (f : FieldDescriptor) : Prop where
  untagged : f.discriminant = false
  named : WireOptions.isWireName f.wireName = true
  unreserved : Category.ofTag? f.wireName = none
  target : ∀ name, f.kind.target? = some name → known name = true
  boxed : f.boxed = true → ∃ name, f.kind = .nested name
  sequence :
    ∀ elem, f.kind = .nestedArray elem → f.presence = .defaulted

/- What the type of a field stands for. -/
def FieldDescriptor.classified
    (f : FieldDescriptor) : Classified :=
  ⟨f.kind, f.boxed, f.presence = .optional⟩

/- What a type stands for. -/
structure Classified.WellFormed
    (known : String → Bool)
    (found : Classified) : Prop where
  target :
    ∀ name, found.kind.target? = some name → known name = true
  boxed : found.boxed = true → ∃ name, found.kind = .nested name
  sequence :
    ∀ elem, found.kind = .nestedArray elem →
      found.optional = false

/- What classification gives is known, so it is well-formed. -/
theorem wellFormed_of_classify
    {known : String → Bool}
    {type : TypeExpr}
    {found : Classified}
    (h : type.classify known = .ok found) :
    found.WellFormed known := by
  cases (TypeExpr.classify_eq_ok h).1 with
  | single optional hElem =>
      rename_i elem
      cases elem with
      | scalar type => exact ⟨nofun, nofun, nofun⟩
      | node target =>
          refine ⟨fun name hTarget => ?_, nofun, nofun⟩
          cases hTarget
          exact hElem.1
  | boxed optional hName =>
      refine ⟨fun name hTarget => ?_, fun _ => ⟨_, rfl⟩, nofun⟩
      cases hTarget
      exact hName.1
  | sequence hElem =>
      rename_i elem
      refine ⟨fun name hTarget => ?_, nofun, fun _ _ => rfl⟩
      cases elem with
      | scalar type => cases hTarget
      | node target =>
          cases hTarget
          exact hElem.1

/-
  What a field comes from: the options of its declaration, and
  what its type stands for.
-/
theorem fieldOf_eq_ok_some
    {known : String → Bool}
    {name : Identifier}
    {decl : FieldDecl}
    {f : FieldDescriptor}
    (h : fieldOf known name decl = .ok (some f)) :
    ∃ options found,
      WireOptions.ofAttributes decl.attributes = .ok options ∧
        options.wireName name = .ok f.wireName ∧
        Category.ofTag? f.wireName = none ∧
        decl.type.classify known = .ok found ∧
        f = ⟨name.text, f.wireName, found.kind, found.boxed,
          f.presence, false⟩ ∧
        (f.presence = .optional ↔ found.optional = true) ∧
        ∀ elem, found.kind = .nestedArray elem →
          found.optional = false → f.presence = .defaulted := by
  unfold fieldOf at h
  rcases Action.except_bind_eq_ok_iff.mp h with
    ⟨options, hOptions, h⟩
  dsimp only at h
  split at h
  · cases h
  split at h
  · cases h
  rcases Action.except_bind_eq_ok_iff.mp h with ⟨wireName, hName, h⟩
  split at h
  · cases h
  rename_i hFree
  rcases Action.except_bind_eq_ok_iff.mp h with ⟨found, hFound, h⟩
  cases h
  refine ⟨options, found, hOptions, hName, by simpa using hFree,
    hFound, rfl, ?_, ?_⟩
  · rcases found with ⟨kind, _, optional⟩
    cases optional with
    | true => simp
    | false =>
        cases kind with
        | nestedArray elem => simp
        | scalar type => cases options.hasDefault <;> simp
        | nested name => cases options.hasDefault <;> simp
  · intro elem hKind hOptional
    dsimp only
    rw [hOptional, hKind]

/- A field that a declaration stands for. -/
theorem wellFormed_of_fieldOf
    {known : String → Bool}
    {name : Identifier}
    {decl : FieldDecl}
    {f : FieldDescriptor}
    (h : fieldOf known name decl = .ok (some f)) :
    f.WellFormed known := by
  rcases fieldOf_eq_ok_some h with
    ⟨_, found, _, hName, hFree, hFound, hField, _, hSequence⟩
  have hType := wellFormed_of_classify hFound
  have hKind := congrArg FieldDescriptor.kind hField
  have hBoxed := congrArg FieldDescriptor.boxed hField
  dsimp only at hKind hBoxed
  rw [← hKind] at hSequence
  constructor
  case untagged => rw [hField]
  case named => exact isWireName_of_wireName hName
  case unreserved => exact hFree
  case target =>
    rw [hKind]
    exact hType.target
  case boxed =>
    rw [hKind, hBoxed]
    exact hType.boxed
  case sequence =>
    intro elem hElem
    exact hSequence elem hElem
      (hType.sequence elem (hKind.symm.trans hElem))

/- A field stands for what its declared type stands for. -/
theorem classify_of_fieldOf
    {known : String → Bool}
    {name : Identifier}
    {decl : FieldDecl}
    {f : FieldDescriptor}
    (h : fieldOf known name decl = .ok (some f)) :
    decl.type.classify known = .ok f.classified := by
  rcases fieldOf_eq_ok_some h with
    ⟨_, found, _, _, _, hFound, hField, hOptional, _⟩
  rw [hFound, hField]
  rcases found with ⟨kind, boxed, optional⟩
  have hSame : optional = decide (f.presence = .optional) := by
    rw [Bool.eq_iff_iff, decide_eq_true_iff]
    exact hOptional.symm
  rw [hSame]
  rfl

/- A field has its identifier and its declared name. -/
theorem declaresName_of_fieldOf
    {known : String → Bool}
    {name : Identifier}
    {decl : FieldDecl}
    {f : FieldDescriptor}
    (h : fieldOf known name decl = .ok (some f)) :
    f.name = name.text ∧
      DeclaresName decl.attributes name f.wireName := by
  rcases fieldOf_eq_ok_some h with
    ⟨options, _, hOptions, hName, _, _, hField, _, _⟩
  exact ⟨congrArg FieldDescriptor.name hField, options, hOptions,
    hName⟩

/- Whether the options of a field say that documents skip it. -/
def Declaration.FieldDecl.IsSkipped
    (decl : FieldDecl) : Prop :=
  ∃ options,
    WireOptions.ofAttributes decl.attributes = .ok options ∧
      options.skip = true

/- A field is left out without a reason where options say so. -/
theorem fieldOf_eq_none_iff
    (known : String → Bool)
    (name : Identifier)
    {decl : FieldDecl} :
    fieldOf known name decl = .ok none ↔ decl.IsSkipped := by
  constructor
  · intro h
    unfold fieldOf at h
    rcases Action.except_bind_eq_ok_iff.mp h with
      ⟨options, hOptions, h⟩
    dsimp only at h
    split at h
    · rename_i hSkip
      exact ⟨options, hOptions, hSkip⟩
    split at h
    · cases h
    rcases Action.except_bind_eq_ok_iff.mp h with ⟨_, _, h⟩
    split at h
    · cases h
    rcases Action.except_bind_eq_ok_iff.mp h with ⟨_, _, h⟩
    cases h
  · rintro ⟨options, hOptions, hSkip⟩
    unfold fieldOf
    rw [hOptions]
    change (if options.skip = true then _ else _) = _
    rw [if_pos hSkip]
    rfl

end TreeWire
