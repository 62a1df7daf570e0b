import TreeWire.Unit.Methods

/-
  The generated unit: decoders for all types of a schema.

  The unit starts with a header and the names it needs.  Its
  methods stand in one section for each category, followed by
  those for sequences of scalars.  At the end each type is
  tied to its method.

  Key definitions include:
    * `Section`
    * `DecoderUnit`
    * `DecoderUnit.ofSchema`
    * `DecoderUnit.text`
-/

namespace TreeWire

------------------------------------------------------------
-- Units
------------------------------------------------------------

/- The methods for a category. -/
structure UnitSection where
  label : String
  methods : List Method
  deriving DecidableEq, Repr, Inhabited

/-
  A unit: its sections, the methods for scalar sequences, and
  the names of the types that it decodes.
-/
structure DecoderUnit where
  sections : List UnitSection
  scalarArrays : List Method
  types : List String
  deriving DecidableEq, Repr, Inhabited

namespace DecoderUnit

------------------------------------------------------------
-- Contents
------------------------------------------------------------

/- What the sequences of a schema hold. -/
def elements
    (schema : Schema) : List ElemType :=
  (schema.nodes.map fun n => n.fields).flatten.filterMap fun f =>
    match f.kind with
    | .nestedArray elem => some elem
    | _ => none

/- The types of a category: the sum type, then its nodes. -/
def typesIn
    (schema : Schema)
    (category : Category) : List String :=
  (schema.sum? category).toList.map SumType.name
    ++ (schema.nodesIn category).map NodeSchema.name

/- The methods for a category. -/
def methodsIn
    (schema : Schema)
    (category : Category) : List Method :=
  (schema.sum? category).toList.map sumMethod
    ++ ((schema.nodesIn category).map fun n =>
        [nodeMethod n, attrsMethod n]).flatten
    ++ ((typesIn schema category).filter fun name =>
        (elements schema).contains (.node name)).map arrayMethod

/- The section of a category, if it has any type. -/
def sectionOf?
    (schema : Schema)
    (category : Category) : Option UnitSection :=
  if (typesIn schema category).isEmpty then
    none
  else
    some ⟨category.label, methodsIn schema category⟩

/- The unit of a schema. -/
def ofSchema
    (schema : Schema) : DecoderUnit where
  sections := Category.order.filterMap (sectionOf? schema)
  scalarArrays :=
    (ScalarType.all.filter fun type =>
      (elements schema).contains (.scalar type)).map
        scalarArrayMethod
  types := (Category.order.map (typesIn schema)).flatten

/- All methods of a unit. -/
def methods
    (u : DecoderUnit) : List Method :=
  (u.sections.map UnitSection.methods).flatten ++ u.scalarArrays

------------------------------------------------------------
-- Text
------------------------------------------------------------

/- The lines in front of the methods. -/
def headerLines
    (u : DecoderUnit) : List Line :=
  [.plain 0 ("// DO NOT EDIT: this file is generated from "
      ++ "the AST schema by `uast gen`"),
   .plain 0 ("// (or by build.rs at build time). "
      ++ "Change the schema and regenerate instead."),
   .blank,
   .plain 0 "use crate::decode::\x7bDecode, Decoder\x7d;",
   .plain 0 "use crate::error::DecodeError;",
   .plain 0 "use crate::scan::TokenSource;",
   .plain 0 "use crate::ast::\x7b"]
    ++ u.types.map (fun name => .plain 1 (name ++ ","))
    ++ [.plain 0 "\x7d;", .blank]

/- The lines of methods, each after a blank line. -/
def methodLines
    (ms : List Method) : List Line :=
  (ms.map fun m => .blank :: m.lines).flatten

/- The lines of a section. -/
def sectionLines
    (s : UnitSection) : List Line :=
  .plain 1 ("// ---- " ++ s.label ++ " ----")
    :: methodLines s.methods

/- The lines of sections, with blank lines between them. -/
def sectionsLines : List UnitSection → List Line
  | [] => []
  | [s] => sectionLines s
  | s :: rest => sectionLines s ++ .blank :: sectionsLines rest

/- The lines that tie a type to its method. -/
def implLines
    (name : String) : List Line :=
  [.blank,
   .plain 0 ("impl Decode for " ++ name ++ " \x7b"),
   .plain 1 ("fn decode<S: TokenSource>(dec: &mut Decoder<S>)"
      ++ " -> Result<Self, DecodeError> \x7b"),
   ⟨2, [.code "dec.", .call (decodeName name), .code "()"]⟩,
   .plain 1 "\x7d",
   .plain 0 "\x7d"]

/- The lines of a unit. -/
def lines
    (u : DecoderUnit) : List Line :=
  headerLines u
    ++ [.plain 0 "impl<S: TokenSource> Decoder<S> \x7b"]
    ++ sectionsLines u.sections
    ++ methodLines u.scalarArrays
    ++ [.plain 0 "\x7d"]
    ++ (u.types.map implLines).flatten

/- A unit as it is written. -/
def text
    (u : DecoderUnit) : String :=
  String.join (u.lines.map Line.text)

end DecoderUnit

end TreeWire
