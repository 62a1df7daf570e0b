import TreeWire.Json.Basic
import TreeWire.Text.Split

/-
  JSON Pointers: texts that name a value in a document.

  A pointer is empty, for the whole document, or a list of
  names, each after a slash.  In a name, `~1` stands for a
  slash and `~0` for a tilde.

  Key definitions include:
    * `Json.pointerNames?`
    * `Json.resolve?`
-/

namespace TreeWire

namespace Json

------------------------------------------------------------
-- Names
------------------------------------------------------------

/- A name with `~1` read as a slash. -/
def unescapeSlash : List Char → List Char
  | '~' :: '1' :: rest => '/' :: unescapeSlash rest
  | c :: rest => c :: unescapeSlash rest
  | [] => []

/- A name with `~0` read as a tilde. -/
def unescapeTilde : List Char → List Char
  | '~' :: '0' :: rest => '~' :: unescapeTilde rest
  | c :: rest => c :: unescapeTilde rest
  | [] => []

/- The names of a pointer. -/
def pointerNames?
    (pointer : String) : Option (List String) :=
  match pointer.toList with
  | [] =>
      some []
  | '/' :: rest =>
      some ((splitAtMark '/' rest).map fun name =>
        String.ofList (unescapeTilde (unescapeSlash name)))
  | _ =>
      none

------------------------------------------------------------
-- Resolution
------------------------------------------------------------

/-
  The array index a name stands for: digits without a zero in
  front.
-/
def indexOf?
    (name : String) : Option Nat :=
  match name.toList with
  | '+' :: _ => none
  | '0' :: _ :: _ => none
  | _ => readNat? name

/- The part of a value with a name. -/
def child?
    (j : Json)
    (name : String) : Option Json :=
  match j with
  | .object members =>
      members.lookup name
  | .array items =>
      match indexOf? name with
      | some i => items[i]?
      | none => none
  | .literal _ =>
      none

/- The value that a list of names leads to. -/
def walk?
    (j : Json) :
    List String → Option Json
  | [] =>
      some j
  | name :: names =>
      match j.child? name with
      | some part => walk? part names
      | none => none

/- The value that a pointer names. -/
def resolve?
    (j : Json)
    (pointer : String) : Option Json :=
  match pointerNames? pointer with
  | some names => j.walk? names
  | none => none

end Json

end TreeWire
