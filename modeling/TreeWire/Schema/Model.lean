import TreeWire.Schema.Basic

/-
  Node schemas: what a declaration of node types says.

  A schema lists the node types in declaration order, and the
  sum types with their variants.  A node of a sum category
  starts with the field of its discriminant.

  Key definitions include:
    * `ElemType`
    * `FieldKind`
    * `FieldDescriptor`
    * `NodeSchema`
    * `SumType`
    * `Schema`
-/

namespace TreeWire

------------------------------------------------------------
-- Fields
------------------------------------------------------------

/- What a sequence holds. -/
inductive ElemType where
  | scalar (type : ScalarType)
  | node (name : String)
  deriving DecidableEq, Repr, Inhabited

/- What a field holds. -/
inductive FieldKind where
  | scalar (type : ScalarType)
  | nested (name : String)
  | nestedArray (elem : ElemType)
  deriving DecidableEq, Repr, Inhabited

/-
  A field of a node type: its name, which may be a raw
  identifier, and the key that carries it.
-/
structure FieldDescriptor where
  name : String
  wireName : String
  kind : FieldKind
  boxed : Bool
  presence : Presence
  discriminant : Bool
  deriving DecidableEq, Repr, Inhabited

namespace FieldDescriptor

/- The field that names the variant of a node. -/
def ofTag
    (tag : String) : FieldDescriptor where
  name := ""
  wireName := tag
  kind := .scalar .string
  boxed := false
  presence := .required
  discriminant := true

/- Whether a field holds a literal. -/
def isScalar
    (f : FieldDescriptor) : Bool :=
  match f.kind with
  | .scalar _ => true
  | _ => false

end FieldDescriptor

------------------------------------------------------------
-- Nodes and Sums
------------------------------------------------------------

/-
  A node type: its fields in declaration order, the name of
  its variant if it is one, and the fields that documents do
  not carry.
-/
structure NodeSchema where
  name : String
  category : Category
  variantName : Option String
  fields : List FieldDescriptor
  skipped : List String
  deriving DecidableEq, Repr, Inhabited

namespace NodeSchema

/- The fields that stand after the discriminant. -/
def attributes
    (node : NodeSchema) : List FieldDescriptor :=
  node.fields.filter fun f => !f.discriminant

/- Whether some attribute holds a literal. -/
def hasScalar
    (node : NodeSchema) : Bool :=
  node.attributes.any FieldDescriptor.isScalar

end NodeSchema

/- A variant: its identifier, its name in documents, its node. -/
structure Variant where
  name : String
  wireName : String
  node : String
  deriving DecidableEq, Repr, Inhabited

/- A sum type and the key that names its variants. -/
structure SumType where
  name : String
  category : Category
  tag : String
  variants : List Variant
  deriving DecidableEq, Repr, Inhabited

------------------------------------------------------------
-- Schemas
------------------------------------------------------------

/- The node types, each under its own name, and the sums. -/
structure Schema where
  nodes : List NodeSchema
  sums : List SumType
  deriving DecidableEq, Repr, Inhabited

namespace Schema

/- The schema without any type. -/
def empty : Schema :=
  ⟨[], []⟩

/- The node type with a name. -/
def node?
    (schema : Schema)
    (name : String) : Option NodeSchema :=
  schema.nodes.find? fun n => n.name = name

/- The sum type of a category. -/
def sum?
    (schema : Schema)
    (category : Category) : Option SumType :=
  schema.sums.find? fun s => s.category = category

/- The node types of a category, in declaration order. -/
def nodesIn
    (schema : Schema)
    (category : Category) : List NodeSchema :=
  schema.nodes.filter fun n => n.category = category

/- Whether a name is the name of a sum type. -/
def isSum
    (schema : Schema)
    (name : String) : Bool :=
  schema.sums.any fun s => s.name = name

/- The category of a node type, else of a sum type. -/
def categoryOf?
    (schema : Schema)
    (name : String) : Option Category :=
  match schema.node? name with
  | some n =>
      some n.category
  | none =>
      (schema.sums.find? fun s => s.name = name).map
        SumType.category

/- Whether there is no node type. -/
def isEmpty
    (schema : Schema) : Bool :=
  schema.nodes.isEmpty

end Schema

end TreeWire
