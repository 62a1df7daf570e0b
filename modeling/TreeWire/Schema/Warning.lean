import TreeWire.Declaration.Parser
import TreeWire.Text.Quoted

/-
  Warnings: why a declaration is not part of a schema.

  Key definitions include:
    * `Reason`
    * `Reason.text`
    * `Warning`
    * `Warning.text`
-/

namespace TreeWire

------------------------------------------------------------
-- Reasons
------------------------------------------------------------

/- Why a declaration is left out. -/
inductive Reason where
  | badAttribute (error : Declaration.SyntaxError)
  | argumentsMissing
  | argumentsAssigned
  | genericStruct
  | tupleStruct
  | genericSum
  | tagTaken (tag : String)
  | notNewtype
  | notDeclared (node : String)
  | alreadyMember (node : String)
  | unusableName (name : String)
  | reservedName (name : String)
  | flattened
  | optionalSequence
  | elementNotPlain
  | unknownElement (name : String)
  | unsupportedType
  | boxedScalar (name : String)
  | unknownType (name : String)
  deriving DecidableEq, Repr, Inhabited

namespace Reason

/- A reason in words. -/
def text : Reason → String
  | .badAttribute error =>
      error.text
  | .argumentsMissing =>
      "expected attribute arguments in parentheses: #[serde(...)]"
  | .argumentsAssigned =>
      "expected parentheses: #[serde(...)]"
  | .genericStruct =>
      "generic structs are unsupported"
  | .tupleStruct =>
      "tuple structs are unsupported"
  | .genericSum =>
      "generic sum types are unsupported"
  | .tagTaken tag =>
      "another sum type is already tagged `" ++ tag ++ "`"
  | .notNewtype =>
      "only newtype variants naming a struct can carry a node"
  | .notDeclared node =>
      "`" ++ node ++ "` is not a declared struct"
  | .alreadyMember node =>
      "`" ++ node ++ "` already belongs to a sum type"
  | .unusableName name =>
      quoted name ++ " cannot be used as a wire name"
  | .reservedName name =>
      "`" ++ name ++ "` is reserved for discriminants"
  | .flattened =>
      "flattened (composed) fields are unsupported"
  | .optionalSequence =>
      "optional sequences are unsupported, use an empty Vec"
  | .elementNotPlain =>
      "sequence elements must be a plain type name"
  | .unknownElement name =>
      "unknown element type `" ++ name ++ "`"
  | .unsupportedType =>
      "unsupported field type"
  | .boxedScalar name =>
      "boxed scalar `" ++ name ++ "` is unsupported"
  | .unknownType name =>
      "unknown type `" ++ name ++ "`"

end Reason

------------------------------------------------------------
-- Warnings
------------------------------------------------------------

/- A type, or a field or variant of it, that is left out. -/
structure Warning where
  node : String
  field : Option String
  reason : Reason
  deriving DecidableEq, Repr, Inhabited

namespace Warning

/- A warning in words. -/
def text
    (w : Warning) : String :=
  match w.field with
  | some field =>
      "dropping " ++ w.node ++ "." ++ field ++ ": " ++ w.reason.text
  | none =>
      "skipping " ++ w.node ++ ": " ++ w.reason.text

end Warning

end TreeWire
