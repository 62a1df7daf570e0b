import TreeWire.Declaration.SourceFile
import TreeWire.Schema.Classification
import TreeWire.Schema.WireOptions

/-
  From a declaration source to a schema.

  An enumeration whose tag is that of a category is the sum
  type of that category, and its variants fix the category of
  the structures that they carry.  What does not fit is left
  out with a warning.

  Key definitions include:
    * `ExtractError`
    * `Extraction`
    * `sumOf`
    * `collectSums`
    * `collectStructs`
    * `retainVariants`
    * `nodeOf`
    * `extract`
-/

namespace TreeWire

open Declaration

------------------------------------------------------------
-- Results
------------------------------------------------------------

/- Why there is no schema. -/
inductive ExtractError where
  | malformed
  | noNodes
  deriving DecidableEq, Repr, Inhabited

namespace ExtractError

/- An error in words. -/
def message : ExtractError → String
  | .malformed => "cannot parse schema source"
  | .noNodes => "schema source declares no node types"

end ExtractError

/- A schema, and the warnings on the way to it. -/
structure Extraction where
  schema : Schema
  warnings : List Warning
  deriving DecidableEq, Repr, Inhabited

------------------------------------------------------------
-- Sum Types
------------------------------------------------------------

/- The node that a variant carries, if it carries just one. -/
def carriedNode? : FieldsDecl → Option String
  | .tuple [field] => field.type.name?
  | _ => none

/- A variant of a sum type. -/
def variantOf
    (decl : VariantDecl) : Except Reason Variant :=
  match carriedNode? decl.fields with
  | none =>
      .error .notNewtype
  | some node => do
      let options ← WireOptions.ofAttributes decl.attributes
      let wireName ← options.wireName decl.name
      pure ⟨decl.name.text, wireName, node⟩

/- The results of a list of attempts. -/
def successes
    {ε α : Type} : List (Except ε α) → List α
  | [] => []
  | .ok a :: rest => a :: successes rest
  | .error _ :: rest => successes rest

/- The warnings on the parts of a type that failed. -/
def failures
    {α : Type}
    (node : String) :
    List (String × Except Reason α) → List Warning
  | [] => []
  | (_, .ok _) :: rest => failures node rest
  | (field, .error reason) :: rest =>
      ⟨node, some field, reason⟩ :: failures node rest

/-
  The sum type that an enumeration is, if it is one, and the
  warnings on it.
-/
def sumOf
    (decl : EnumDecl) : Option SumType × List Warning :=
  match WireOptions.ofAttributes decl.attributes with
  | .error reason =>
      (none, [⟨decl.name, none, reason⟩])
  | .ok options =>
      match options.tag with
      | none =>
          (none, [])
      | some tag =>
          match Category.ofTag? tag with
          | none =>
              (none, [])
          | some category =>
              if decl.isGeneric then
                (none, [⟨decl.name, none, .genericSum⟩])
              else
                let variants := decl.variants.map fun v =>
                  (v.name.text, variantOf v)
                (some ⟨decl.name, category, tag,
                    successes (variants.map (·.2))⟩,
                  failures decl.name variants)

/-
  The sum types of enumerations, after those found before.
  The first one of a category counts.
-/
def collectSums
    (found : List SumType) :
    List EnumDecl → List SumType × List Warning
  | [] =>
      (found, [])
  | decl :: decls =>
      match sumOf decl with
      | (none, warnings) =>
          let (sums, others) := collectSums found decls
          (sums, warnings ++ others)
      | (some sum, warnings) =>
          if found.any fun s => s.category = sum.category then
            let (sums, others) := collectSums found decls
            (sums, warnings
              ++ ⟨sum.name, none, .tagTaken sum.tag⟩ :: others)
          else
            let (sums, others) := collectSums (found ++ [sum]) decls
            (sums, warnings ++ others)

------------------------------------------------------------
-- Structures
------------------------------------------------------------

/- Why a structure is not a node type. -/
def structProblem?
    (decl : StructDecl) : Option Reason :=
  if decl.isGeneric then
    some .genericStruct
  else
    match decl.fields with
    | .tuple _ => some .tupleStruct
    | _ => none

/-
  Put a structure into a list.  One with the same name gives
  up its place to it.
-/
def insertStruct
    (decl : StructDecl) : List StructDecl → List StructDecl
  | [] =>
      [decl]
  | first :: rest =>
      if first.name = decl.name then decl :: rest
      else first :: insertStruct decl rest

/- The structures that are node types, and the warnings. -/
def collectStructs
    (decls : List StructDecl) : List StructDecl × List Warning :=
  ((decls.filter fun d => (structProblem? d).isNone).foldl
      (fun structs d => insertStruct d structs) [],
    decls.filterMap fun d =>
      (structProblem? d).map fun reason => ⟨d.name, none, reason⟩)

------------------------------------------------------------
-- Membership
------------------------------------------------------------

/- A node type, and the variant that carries it. -/
structure Member where
  node : String
  category : Category
  wireName : String
  deriving DecidableEq, Repr, Inhabited

/-
  Keep the variants of a sum type that carry a declared node
  type which no variant carries yet.
-/
def retainVariants
    (declared : String → Bool)
    (sum : SumType)
    (members : List Member) :
    List Variant → List Variant × List Member × List Warning
  | [] =>
      ([], members, [])
  | v :: rest =>
      let drop (reason : Reason) :=
        let (kept, members, warnings) :=
          retainVariants declared sum members rest
        (kept, members,
          ⟨sum.name, some v.name, reason⟩ :: warnings)
      if !declared v.node then
        drop (.notDeclared v.node)
      else if members.any fun m => m.node = v.node then
        drop (.alreadyMember v.node)
      else
        let (kept, members, warnings) :=
          retainVariants declared sum
            (members ++ [⟨v.node, sum.category, v.wireName⟩]) rest
        (v :: kept, members, warnings)

/- Keep the right variants of all sum types. -/
def retainAll
    (declared : String → Bool)
    (members : List Member) :
    List SumType → List SumType × List Member × List Warning
  | [] =>
      ([], members, [])
  | sum :: rest =>
      let (variants, members, warnings) :=
        retainVariants declared sum members sum.variants
      let (sums, members, others) :=
        retainAll declared members rest
      ({ sum with variants := variants } :: sums, members,
        warnings ++ others)

------------------------------------------------------------
-- Fields
------------------------------------------------------------

/-
  The field that a declaration is, if documents carry it.
-/
def fieldOf
    (known : String → Bool)
    (name : Identifier)
    (decl : FieldDecl) :
    Except Reason (Option FieldDescriptor) := do
  let options ← WireOptions.ofAttributes decl.attributes
  if options.skip then
    return none
  if options.flatten then
    throw .flattened
  let wireName ← options.wireName name
  if (Category.ofTag? wireName).isSome then
    throw (.reservedName wireName)
  let found ← decl.type.classify known
  let presence :=
    match found.optional, found.kind with
    | true, _ => .optional
    | false, .nestedArray _ => .defaulted
    | false, _ =>
        if options.hasDefault then .defaulted else .required
  return some
    { name := name.text
      wireName := wireName
      kind := found.kind
      boxed := found.boxed
      presence := presence
      discriminant := false }

/- The fields of a structure with their names. -/
def namedFieldsOf : FieldsDecl → List (Identifier × FieldDecl)
  | .named fields =>
      fields.filterMap fun f => f.name.map fun name => (name, f)
  | _ =>
      []

/- The names of the parts that are not among the results. -/
def leftOut :
    List (String × Except Reason (Option FieldDescriptor)) →
    List String
  | [] => []
  | (_, .ok (some _)) :: rest => leftOut rest
  | (name, _) :: rest => name :: leftOut rest

/- The node type that a structure is, and the warnings. -/
def nodeOf
    (known : String → Bool)
    (members : List Member)
    (decl : StructDecl) : NodeSchema × List Warning :=
  let member := members.find? fun m => m.node = decl.name
  let category := (member.map Member.category).getD .other
  let tagField :=
    match category.tag? with
    | some tag => [FieldDescriptor.ofTag tag]
    | none => []
  let fields := (namedFieldsOf decl.fields).map fun (name, f) =>
    (name.text, fieldOf known name f)
  let kept := (successes (fields.map (·.2))).filterMap id
  ({ name := decl.name
     category := category
     variantName := member.map Member.wireName
     fields := tagField ++ kept
     skipped := leftOut fields },
    failures decl.name fields)

------------------------------------------------------------
-- Extraction
------------------------------------------------------------

/- The enumerations among items. -/
def enumsOf
    (items : List Item) : List EnumDecl :=
  items.filterMap fun item =>
    match item with
    | .enumDecl decl => some decl
    | _ => none

/- The structures among items. -/
def structsOf
    (items : List Item) : List StructDecl :=
  items.filterMap fun item =>
    match item with
    | .structDecl decl => some decl
    | _ => none

/- The schema of items. -/
def extractItems
    (items : List Item) : Extraction :=
  let (found, sumWarnings) := collectSums [] (enumsOf items)
  let (structs, structWarnings) := collectStructs (structsOf items)
  let declared (name : String) :=
    structs.any fun d => d.name = name
  let (sums, members, variantWarnings) :=
    retainAll declared [] found
  let known (name : String) :=
    declared name || sums.any fun s => s.name = name
  let nodes := structs.map (nodeOf known members)
  { schema := ⟨nodes.map (·.1), sums⟩
    warnings :=
      sumWarnings ++ structWarnings ++ variantWarnings
        ++ (nodes.map (·.2)).flatten }

/- The schema of a source, which declares some node type. -/
def extract
    (source : String) : Except ExtractError Extraction :=
  match items? source with
  | none =>
      .error .malformed
  | some items =>
      let extraction := extractItems items
      if extraction.schema.isEmpty then .error .noNodes
      else .ok extraction

end TreeWire
