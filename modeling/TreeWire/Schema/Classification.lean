import TreeWire.Declaration.Model
import TreeWire.Schema.Model
import TreeWire.Schema.Warning

/-
  What the type of a field stands for.

  A field holds a scalar or a node, which may be boxed; either
  may be optional.  Or it holds a sequence of scalars or of
  nodes.

  Key definitions include:
    * `Classified`
    * `TypeExpr.wrapped?`
    * `TypeExpr.name?`
    * `TypeExpr.classify`
-/

namespace TreeWire

namespace Declaration

namespace TypeExpr

------------------------------------------------------------
-- Parts of Types
------------------------------------------------------------

/- The type in a wrapper, which its last segment names. -/
def wrapped?
    (wrapper : String) : TypeExpr → Option TypeExpr
  | .other =>
      none
  | .path _ segments =>
      match segments.getLast? with
      | some (.mk name (some [.type inner])) =>
          if name = wrapper then some inner else none
      | _ =>
          none

/- The name that a type is, if it is just a name. -/
def name? : TypeExpr → Option String
  | .path _ [.mk name none] => some name
  | _ => none

/- Peel a wrapper off, and say if there was one. -/
def peel
    (wrapper : String)
    (type : TypeExpr) : TypeExpr × Bool :=
  match type.wrapped? wrapper with
  | some inner => (inner, true)
  | none => (type, false)

end TypeExpr

end Declaration

------------------------------------------------------------
-- Classification
------------------------------------------------------------

/- What a field holds, and how. -/
structure Classified where
  kind : FieldKind
  boxed : Bool
  optional : Bool
  deriving DecidableEq, Repr, Inhabited

namespace Declaration

namespace TypeExpr

/- The elements of a sequence. -/
def classifyElement
    (known : String → Bool)
    (element : TypeExpr) : Except Reason ElemType :=
  match element.name? with
  | none =>
      .error .elementNotPlain
  | some name =>
      match ScalarType.ofTypeName? name with
      | some scalar =>
          .ok (.scalar scalar)
      | none =>
          if known name then .ok (.node name)
          else .error (.unknownElement name)

/- A scalar or a node, which may be boxed. -/
def classifySingle
    (known : String → Bool)
    (optional : Bool)
    (type : TypeExpr) : Except Reason Classified :=
  let (inner, boxed) := type.peel "Box"
  match inner.name? with
  | none =>
      .error .unsupportedType
  | some name =>
      match ScalarType.ofTypeName? name with
      | some scalar =>
          if boxed then .error (.boxedScalar name)
          else .ok ⟨.scalar scalar, boxed, optional⟩
      | none =>
          if known name then .ok ⟨.nested name, boxed, optional⟩
          else .error (.unknownType name)

/- What a type stands for, given the names of node types. -/
def classify
    (known : String → Bool)
    (type : TypeExpr) : Except Reason Classified :=
  let (type, optional) := type.peel "Option"
  match type.wrapped? "Vec" with
  | some element =>
      if optional then
        .error .optionalSequence
      else
        (classifyElement known element).map fun elem =>
          ⟨.nestedArray elem, false, false⟩
  | none =>
      classifySingle known optional type

end TypeExpr

end Declaration

end TreeWire
