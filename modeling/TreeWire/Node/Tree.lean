import TreeWire.Node.Type
import TreeWire.Number.Binary64

/-
  Program trees: the values that documents denote.

  A node has one slot for each field of its node type, in the
  same order.  A slot is empty when an optional field is
  missing.

  Key definitions include:
    * `Tree`
    * `Tree.HasShape`
    * `NodeType.zero`
-/

namespace TreeWire

------------------------------------------------------------
-- Trees
------------------------------------------------------------

/- A program tree. -/
inductive Tree where
  | text (s : String)
  | int (n : Int64)
  | float (x : Binary64)
  | flag (b : Bool)
  | list (items : List Tree)
  | node (type : NodeType) (slots : List (Option Tree))

instance : Inhabited Tree :=
  ⟨.list []⟩

------------------------------------------------------------
-- Shapes of Trees
------------------------------------------------------------

namespace Tree

mutual

/- A tree is a value of a shape. -/
inductive HasShape : Tree → Shape → Prop where
  | text
      (s : String) :
      HasShape (.text s) (.scalar .string)
  | int
      (n : Int64) :
      HasShape (.int n) (.scalar .int64)
  | float
      (x : Binary64) :
      HasShape (.float x) (.scalar .float64)
  | flag
      (b : Bool) :
      HasShape (.flag b) (.scalar .bool)
  | list
      (items : List Tree)
      (elem : Shape)
      (h : AllHaveShape items elem) :
      HasShape (.list items) (.list elem)
  | node
      (type : NodeType)
      (slots : List (Option Tree))
      (h : FillFields slots type.fields) :
      HasShape (.node type slots) (.node type)
  | variant
      (type : NodeType)
      (sum : NodeSum)
      (slots : List (Option Tree))
      (hSum : type.category = sum.category)
      (h : FillFields slots type.fields) :
      HasShape (.node type slots) (.sum sum)

/- All trees of a list are values of one shape. -/
inductive AllHaveShape : List Tree → Shape → Prop where
  | nil
      (elem : Shape) :
      AllHaveShape [] elem
  | cons
      (item : Tree)
      (items : List Tree)
      (elem : Shape)
      (hItem : HasShape item elem)
      (hItems : AllHaveShape items elem) :
      AllHaveShape (item :: items) elem

/- Slots fit the fields of a node type one by one. -/
inductive FillFields : List (Option Tree) → List Field → Prop where
  | nil :
      FillFields [] []
  | absent
      (slots : List (Option Tree))
      (f : Field)
      (fields : List Field)
      (hOptional : f.presence = .optional)
      (hRest : FillFields slots fields) :
      FillFields (none :: slots) (f :: fields)
  | present
      (value : Tree)
      (slots : List (Option Tree))
      (f : Field)
      (fields : List Field)
      (hValue : HasShape value f.shape)
      (hRest : FillFields slots fields) :
      FillFields (some value :: slots) (f :: fields)

end

end Tree

------------------------------------------------------------
-- Defaults
------------------------------------------------------------

namespace ScalarType

/- The default literal of a scalar type. -/
def zero : ScalarType → Tree
  | .string => .text ""
  | .int64 => .int 0
  | .float64 => .float (Binary64.zero false)
  | .bool => .flag false

end ScalarType

namespace Shape

/-
  The default of a shape, given those of node types.  A sum
  has none.
-/
def zero?
    (nodeZero : NodeType → Tree) : Shape → Option Tree
  | .scalar type => some type.zero
  | .node type => some (nodeZero type)
  | .sum _ => none
  | .list _ => some (.list [])

end Shape

namespace NodeType

/- The default of a node type, given those of nested ones. -/
def zeroWith
    (nodeZero : NodeType → Tree)
    (t : NodeType) : Tree :=
  .node t (t.fields.map fun f =>
    match f.presence with
    | .optional => none
    | _ => f.shape.zero? nodeZero)

/-
  The default of a node type.  A node that another one
  requires does not require a node itself, so two rounds reach
  every default.
-/
def zero
    (t : NodeType) : Tree :=
  zeroWith (zeroWith fun u => .node u []) t

end NodeType

end TreeWire
