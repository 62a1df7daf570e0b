import TreeWire.Declaration.TokenTree

/-
  What a declaration source declares.

  Only structures and enumerations at the top are kept, with
  their attributes; of types, only paths are.

  Key definitions include:
    * `TypeExpr`
    * `Attribute`
    * `FieldDecl`
    * `StructDecl`
    * `EnumDecl`
    * `Item`
-/

namespace TreeWire

namespace Declaration

------------------------------------------------------------
-- Types
------------------------------------------------------------

mutual

/- A type: a path and `::` in front of it, or some other type. -/
inductive TypeExpr where
  | path (rooted : Bool) (segments : List PathSegment)
  | other

/- A segment of a path, and its arguments if it has any. -/
inductive PathSegment where
  | mk (name : String) (arguments : Option (List GenericArg))

/- An argument: a type, or some other argument. -/
inductive GenericArg where
  | type (type : TypeExpr)
  | other

end

instance : Inhabited TypeExpr :=
  ⟨.other⟩

namespace PathSegment

/- The identifier of a segment. -/
def name : PathSegment → String
  | .mk name _ => name

/- The arguments of a segment. -/
def arguments : PathSegment → Option (List GenericArg)
  | .mk _ arguments => arguments

end PathSegment

------------------------------------------------------------
-- Attributes
------------------------------------------------------------

/- What stands after the path of an attribute. -/
inductive AttributeBody where
  | absent
  | value
  | list (trees : List TokenTree)

/- An attribute: its path, `::` in front of it, its body. -/
structure Attribute where
  rooted : Bool
  path : List String
  body : AttributeBody

namespace Attribute

/- Whether the path of an attribute is a single identifier. -/
def isNamed
    (a : Attribute)
    (name : String) : Bool :=
  !a.rooted && a.path = [name]

end Attribute

------------------------------------------------------------
-- Declarations
------------------------------------------------------------

/- A field; those of a tuple have no name. -/
structure FieldDecl where
  attributes : List Attribute
  name : Option Identifier
  type : TypeExpr

/- The fields of a structure or of a variant. -/
inductive FieldsDecl where
  | named (fields : List FieldDecl)
  | tuple (fields : List FieldDecl)
  | unit

/- A structure. -/
structure StructDecl where
  attributes : List Attribute
  name : String
  isGeneric : Bool
  fields : FieldsDecl

/- A variant of an enumeration. -/
structure VariantDecl where
  attributes : List Attribute
  name : Identifier
  fields : FieldsDecl

/- An enumeration. -/
structure EnumDecl where
  attributes : List Attribute
  name : String
  isGeneric : Bool
  variants : List VariantDecl

/- An item at the top of a source. -/
inductive Item where
  | structDecl (decl : StructDecl)
  | enumDecl (decl : EnumDecl)
  | other

end Declaration

end TreeWire
