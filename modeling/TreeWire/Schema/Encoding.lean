import TreeWire.Json.Basic
import TreeWire.Schema.Model

/-
  Schemas as JSON documents.

  Key definitions include:
    * `Schema.toJson`
-/

namespace TreeWire

------------------------------------------------------------
-- Fields
------------------------------------------------------------

namespace ElemType

/- An element type as a document. -/
def toJson : ElemType → Json
  | .scalar type => .object [("Scalar", .string type.name)]
  | .node name => .object [("Node", .string name)]

end ElemType

namespace FieldKind

/- A field kind as a document. -/
def toJson : FieldKind → Json
  | .scalar type => .object [("Scalar", .string type.name)]
  | .nested name => .object [("Nested", .string name)]
  | .nestedArray elem => .object [("NestedArray", elem.toJson)]

end FieldKind

namespace FieldDescriptor

/- A field as a document. -/
def toJson
    (f : FieldDescriptor) : Json :=
  .object
    [("name", .string f.name),
     ("wire_name", .string f.wireName),
     ("kind", f.kind.toJson),
     ("boxed", .bool f.boxed),
     ("presence", .string f.presence.name),
     ("discriminant", .bool f.discriminant)]

end FieldDescriptor

------------------------------------------------------------
-- Nodes and Sums
------------------------------------------------------------

namespace NodeSchema

/- A node type as a document. -/
def toJson
    (node : NodeSchema) : Json :=
  .object
    [("name", .string node.name),
     ("category", .string node.category.name),
     ("variant",
       match node.variantName with
       | some name => .string name
       | none => .null),
     ("fields", .array (node.fields.map FieldDescriptor.toJson)),
     ("skipped", .array (node.skipped.map Json.string))]

end NodeSchema

namespace Variant

/- A variant as a document. -/
def toJson
    (v : Variant) : Json :=
  .object
    [("name", .string v.name),
     ("wire_name", .string v.wireName),
     ("node", .string v.node)]

end Variant

namespace SumType

/- A sum type as a document. -/
def toJson
    (sum : SumType) : Json :=
  .object
    [("name", .string sum.name),
     ("category", .string sum.category.name),
     ("tag", .string sum.tag),
     ("variants", .array (sum.variants.map Variant.toJson))]

end SumType

------------------------------------------------------------
-- Schemas
------------------------------------------------------------

namespace Schema

/- A schema as a document. -/
def toJson
    (schema : Schema) : Json :=
  .object
    [("nodes",
       .object (schema.nodes.map fun n => (n.name, n.toJson))),
     ("sums", .array (schema.sums.map SumType.toJson))]

end Schema

end TreeWire
