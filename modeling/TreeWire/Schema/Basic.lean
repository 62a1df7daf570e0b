/-
  The vocabulary of node schemas: categories of node types,
  scalar types, and when a field may be left out.

  Key definitions include:
    * `Category`
    * `Category.tag?`
    * `Category.ofTag?`
    * `ScalarType`
    * `Presence`
-/

namespace TreeWire

------------------------------------------------------------
-- Categories
------------------------------------------------------------

/-
  The categories of node types.  Expressions and statements
  are the variants of a sum type; other nodes stand alone.
-/
inductive Category where
  | expression
  | statement
  | other
  deriving DecidableEq, Repr, Inhabited

namespace Category

/- The categories in the order in which units list them. -/
def order : List Category :=
  [.expression, .statement, .other]

/- The key that names the variant of a node. -/
def tag? : Category → Option String
  | .expression => some "expression_name"
  | .statement => some "statement_name"
  | .other => none

/- The category whose variants a key names. -/
def ofTag?
    (tag : String) : Option Category :=
  if tag = "expression_name" then some .expression
  else if tag = "statement_name" then some .statement
  else none

/- Whether the nodes of a category are variants of a sum. -/
def isSum
    (c : Category) : Bool :=
  c.tag?.isSome

/- The heading of a category. -/
def label : Category → String
  | .expression => "expressions"
  | .statement => "statements"
  | .other => "other nodes"

/- The name of a category. -/
def name : Category → String
  | .expression => "Expression"
  | .statement => "Statement"
  | .other => "Other"

end Category

------------------------------------------------------------
-- Scalar Types
------------------------------------------------------------

/- The types of literals. -/
inductive ScalarType where
  | string
  | int64
  | float64
  | bool
  deriving DecidableEq, Repr, Inhabited

namespace ScalarType

/- All scalar types, in the order in which units list them. -/
def all : List ScalarType :=
  [.string, .int64, .float64, .bool]

/- The type as a declaration writes it. -/
def typeName : ScalarType → String
  | .string => "String"
  | .int64 => "i64"
  | .float64 => "f64"
  | .bool => "bool"

/- The scalar type that a type name stands for. -/
def ofTypeName?
    (ident : String) : Option ScalarType :=
  all.find? fun s => s.typeName = ident

/- The method that converts a literal of this type. -/
def conversion : ScalarType → String
  | .string => "into_string"
  | .int64 => "into_int"
  | .float64 => "into_float"
  | .bool => "into_bool"

/- The type name in small letters. -/
def smallName : ScalarType → String
  | .string => "string"
  | .int64 => "i64"
  | .float64 => "f64"
  | .bool => "bool"

/- The name of a scalar type. -/
def name : ScalarType → String
  | .string => "String"
  | .int64 => "Int64"
  | .float64 => "Float64"
  | .bool => "Bool"

end ScalarType

------------------------------------------------------------
-- Presence
------------------------------------------------------------

/-
  Whether a field has to be present: always, or it may be left
  out and is then missing, or has its default.
-/
inductive Presence where
  | required
  | optional
  | defaulted
  deriving DecidableEq, Repr, Inhabited

namespace Presence

/- The name of a presence. -/
def name : Presence → String
  | .required => "Required"
  | .optional => "Optional"
  | .defaulted => "Defaulted"

end Presence

end TreeWire
