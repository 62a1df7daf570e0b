import TreeWire.Json.Basic
import TreeWire.Node.Tree

/-
  Program trees as documents.

  Fields come in declaration order under their keys, an empty
  slot is left out, and a value of a sum starts with its tag.

  Key definitions include:
    * `Tree.toJson`
-/

namespace TreeWire

------------------------------------------------------------
-- Encoding
------------------------------------------------------------

namespace Tree

/- The member that names a node type where a sum stands. -/
def tagMembers
    (shape : Shape)
    (type : NodeType) : List (String × Json) :=
  match shape with
  | .sum sum => [(sum.tag, .string type.name)]
  | _ => []

/- The shape of the elements of a shape. -/
def elemShape : Shape → Shape
  | .list elem => elem
  | other => other

mutual

/- A tree, as a value of a shape, as a document. -/
def toJson
    (shape : Shape) : Tree → Json
  | .text s =>
      .string s
  | .int n =>
      .int n.toInt
  | .float x =>
      .float x
  | .flag b =>
      .bool b
  | .list items =>
      .array (itemsToJson (elemShape shape) items)
  | .node type slots =>
      .object (tagMembers shape type
        ++ slotsToJson type.fields slots)

/- Elements of one shape as documents. -/
def itemsToJson
    (elem : Shape) : List Tree → List Json
  | [] =>
      []
  | item :: items =>
      item.toJson elem :: itemsToJson elem items

/- Slots as members. -/
def slotsToJson :
    List Field → List (Option Tree) → List (String × Json)
  | f :: fields, some value :: slots =>
      if f.carried then
        (f.key, value.toJson f.shape) :: slotsToJson fields slots
      else
        slotsToJson fields slots
  | _ :: fields, none :: slots =>
      slotsToJson fields slots
  | _, _ =>
      []

end

end Tree

end TreeWire
