import TreeWire.Declaration.Model

/-
  Equality of declarations is decidable.

  Token trees and types hold lists of their own kind, so their
  comparison is defined together with that of the lists.  It
  decides equality, and with it the equality of items.

  Key definitions include:
    * `TokenTree.same`
    * `TypeExpr.same`

  Main statements:
    * `TokenTree.same_iff`
    * `TypeExpr.same_iff`
-/

namespace TreeWire

namespace Declaration

------------------------------------------------------------
-- Token Trees
------------------------------------------------------------

namespace TokenTree

mutual

/- Whether two trees are the same. -/
def same : TokenTree → TokenTree → Bool
  | .ident name, .ident other => name = other
  | .lifetime name, .lifetime other => name = other
  | .punct mark joint, .punct other joint' =>
      mark = other && joint = joint'
  | .literal lit, .literal other => lit = other
  | .group delimiter trees, .group other trees' =>
      delimiter = other && sameAll trees trees'
  | _, _ => false

/- Whether two lists of trees are the same. -/
def sameAll : List TokenTree → List TokenTree → Bool
  | [], [] => true
  | tree :: trees, other :: others =>
      same tree other && sameAll trees others
  | _, _ => false

end

mutual

theorem same_iff
    (tree other : TokenTree) :
    same tree other = true ↔ tree = other := by
  cases tree with
  | group delimiter trees =>
      cases other with
      | group delimiter' trees' =>
          simp [same, sameAll_iff trees trees']
      | _ => simp [same]
  | _ => cases other <;> simp [same]

theorem sameAll_iff
    (trees others : List TokenTree) :
    sameAll trees others = true ↔ trees = others := by
  cases trees with
  | nil => cases others <;> simp [sameAll]
  | cons tree trees =>
      cases others with
      | nil => simp [sameAll]
      | cons other others =>
          simp [sameAll, same_iff tree other,
            sameAll_iff trees others]

end

instance : DecidableEq TokenTree :=
  fun tree other => decidable_of_iff _ (same_iff tree other)

end TokenTree

------------------------------------------------------------
-- Types
------------------------------------------------------------

mutual

/- Whether two types are the same. -/
def TypeExpr.same : TypeExpr → TypeExpr → Bool
  | .path rooted segments, .path rooted' others =>
      rooted = rooted' && PathSegment.sameAll segments others
  | .other, .other => true
  | _, _ => false

/- Whether two lists of segments are the same. -/
def PathSegment.sameAll : List PathSegment → List PathSegment → Bool
  | [], [] => true
  | .mk name arguments :: rest, .mk name' arguments' :: others =>
      name = name' && GenericArg.sameOptional arguments arguments' &&
        PathSegment.sameAll rest others
  | _, _ => false

/- Whether the arguments of two segments are the same. -/
def GenericArg.sameOptional :
    Option (List GenericArg) → Option (List GenericArg) → Bool
  | none, none => true
  | some arguments, some others =>
      GenericArg.sameAll arguments others
  | _, _ => false

/- Whether two lists of arguments are the same. -/
def GenericArg.sameAll : List GenericArg → List GenericArg → Bool
  | [], [] => true
  | .type type :: rest, .type type' :: others =>
      TypeExpr.same type type' && GenericArg.sameAll rest others
  | .other :: rest, .other :: others =>
      GenericArg.sameAll rest others
  | _, _ => false

end

mutual

theorem TypeExpr.same_iff
    (type type' : TypeExpr) :
    type.same type' = true ↔ type = type' := by
  cases type with
  | path rooted segments =>
      cases type' with
      | path rooted' others =>
          simp [TypeExpr.same, PathSegment.sameAll_iff segments others]
      | other => simp [TypeExpr.same]
  | other => cases type' <;> simp [TypeExpr.same]

theorem PathSegment.sameAll_iff
    (segments others : List PathSegment) :
    PathSegment.sameAll segments others = true ↔
      segments = others := by
  cases segments with
  | nil => cases others <;> simp [PathSegment.sameAll]
  | cons first rest =>
      cases first with
      | mk name arguments =>
          cases others with
          | nil => simp [PathSegment.sameAll]
          | cons first' others =>
              cases first' with
              | mk name' arguments' =>
                  simp [PathSegment.sameAll, and_assoc,
                    GenericArg.sameOptional_iff arguments arguments',
                    PathSegment.sameAll_iff rest others]

theorem GenericArg.sameOptional_iff
    (arguments others : Option (List GenericArg)) :
    GenericArg.sameOptional arguments others = true ↔
      arguments = others := by
  cases arguments with
  | none => cases others <;> simp [GenericArg.sameOptional]
  | some arguments =>
      cases others with
      | none => simp [GenericArg.sameOptional]
      | some others =>
          simp [GenericArg.sameOptional,
            GenericArg.sameAll_iff arguments others]

theorem GenericArg.sameAll_iff
    (arguments others : List GenericArg) :
    GenericArg.sameAll arguments others = true ↔
      arguments = others := by
  cases arguments with
  | nil => cases others <;> simp [GenericArg.sameAll]
  | cons first rest =>
      cases first with
      | type type =>
          cases others with
          | nil => simp [GenericArg.sameAll]
          | cons first' others =>
              cases first' with
              | type type' =>
                  simp [GenericArg.sameAll,
                    TypeExpr.same_iff type type',
                    GenericArg.sameAll_iff rest others]
              | other => simp [GenericArg.sameAll]
      | other =>
          cases others with
          | nil => simp [GenericArg.sameAll]
          | cons first' others =>
              cases first' with
              | type type' => simp [GenericArg.sameAll]
              | other =>
                  simp [GenericArg.sameAll,
                    GenericArg.sameAll_iff rest others]

end

instance : DecidableEq TypeExpr :=
  fun type type' => decidable_of_iff _ (TypeExpr.same_iff type type')

------------------------------------------------------------
-- Declarations
------------------------------------------------------------

deriving instance DecidableEq for AttributeBody, Attribute, FieldDecl,
  FieldsDecl, StructDecl, VariantDecl, EnumDecl, Item

end Declaration

end TreeWire
