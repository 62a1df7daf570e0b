import TreeWire.Token

/-
  JSON documents as trees.

  A tree keeps the order of members and may repeat a key.  Its
  leaves are literals, so the token stream of a document is
  the tree walked in order.

  Key definitions include:
    * `Json`
    * `Json.tokens`
    * `Json.depth`
-/

namespace TreeWire

------------------------------------------------------------
-- Trees
------------------------------------------------------------

/- A JSON document. -/
inductive Json where
  | literal (lit : Literal)
  | array (items : List Json)
  | object (members : List (String × Json))
  deriving Inhabited, Repr

namespace Json

/- The document `null`. -/
def null : Json :=
  .literal ⟨.null, "null"⟩

/- The text of a truth value. -/
def boolText
    (b : Bool) : String :=
  if b then "true" else "false"

/- A truth value. -/
def bool
    (b : Bool) : Json :=
  .literal ⟨.bool, boolText b⟩

/- A text. -/
def string
    (s : String) : Json :=
  .literal ⟨.string, s⟩

/- An integer. -/
def int
    (n : Int) : Json :=
  .literal ⟨.int, intText n⟩

/- A double. -/
def float
    (x : Binary64) : Json :=
  .literal ⟨.float, x.text⟩

------------------------------------------------------------
-- Token Streams
------------------------------------------------------------

mutual

/- The tokens of a tree, in order. -/
def tokens : Json → List Token
  | .literal lit =>
      [.literal lit]
  | .array items =>
      .arrayOpen :: (itemTokens items ++ [.arrayClose])
  | .object members =>
      .objectOpen :: (memberTokens members ++ [.objectClose])

/- The tokens of array elements. -/
def itemTokens : List Json → List Token
  | [] =>
      []
  | item :: items =>
      item.tokens ++ itemTokens items

/- The tokens of object members. -/
def memberTokens : List (String × Json) → List Token
  | [] =>
      []
  | (key, value) :: members =>
      .key key :: (value.tokens ++ memberTokens members)

end

------------------------------------------------------------
-- Nesting
------------------------------------------------------------

mutual

/- How deep containers nest in a tree. -/
def depth : Json → Nat
  | .literal _ => 0
  | .array items => itemsDepth items + 1
  | .object members => membersDepth members + 1

/- How deep containers nest in array elements. -/
def itemsDepth : List Json → Nat
  | [] => 0
  | item :: items => max item.depth (itemsDepth items)

/- How deep containers nest in object members. -/
def membersDepth : List (String × Json) → Nat
  | [] => 0
  | (_, value) :: members =>
      max value.depth (membersDepth members)

end

end Json

end TreeWire
