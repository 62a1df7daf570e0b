import TreeWire.Node.Tree
import TreeWire.Source.Basic

/-
  Decoding program trees from tokens.

  The decoder follows the shape of the value that it expects.
  It reads each token once, gives back at most one, and stops
  at the closing mark of its own value.

  The decoder has a number of levels, one for each node or
  list within another, and a number of parts that an object or
  a list may have.  Both come from a bound on the tokens that
  the source has left, so that neither is ever used up.

  Key definitions include:
    * `decodeWithin`
    * `decode`
    * `finish`
    * `decodeDocument`
-/

namespace TreeWire

------------------------------------------------------------
-- Literals
------------------------------------------------------------

namespace ScalarType

/- The tree of a literal of a scalar type. -/
def ofToken
    (type : ScalarType)
    (token : Token) : Except DecodeError Tree :=
  match type with
  | .string => token.readString.map .text
  | .int64 => token.readInt.map .int
  | .float64 => token.readFloat.map .float
  | .bool => token.readBool.map .flag

end ScalarType

------------------------------------------------------------
-- Nodes from Members
------------------------------------------------------------

namespace NodeType

/-
  The slot of a field, from the members of an object, the last
  one first.
-/
def slot
    (t : NodeType)
    (members : List (String × Tree))
    (f : Field) : Except DecodeError (Option Tree) :=
  match if f.carried then members.lookup f.key else none with
  | some value =>
      .ok (some value)
  | none =>
      match f.presence with
      | .required => .error (.here (.missingField t.name f.key))
      | .optional => .ok none
      | .defaulted => .ok (f.shape.zero? zero)

/- The slots of fields, from the members of an object. -/
def slots
    (t : NodeType)
    (members : List (String × Tree)) :
    List Field → Except DecodeError (List (Option Tree))
  | [] =>
      .ok []
  | f :: fields => do
      let first ← t.slot members f
      let rest ← t.slots members fields
      pure (first :: rest)

/- The node with the members of an object, last one first. -/
def ofMembers
    (t : NodeType)
    (members : List (String × Tree)) : Except DecodeError Tree :=
  (t.slots members t.fields).map (.node t)

end NodeType

------------------------------------------------------------
-- Marks and Tags
------------------------------------------------------------

section

variable {σ : Type} [TokenSource σ]

/- The result of a pure computation. -/
def Reading.ofExcept
    {α : Type}
    (result : Except DecodeError α) : Reading σ α :=
  fun s => (result, s)

/- Read the token that opens a container. -/
def expectMark
    (mark : Token) : Reading σ Unit := do
  let token ← nextToken
  if token = mark then
    pure ()
  else
    throw (Token.wrongShape mark.kind.text token)

/- Read a closing mark if it comes next. -/
def closes
    (mark : Token) : Reading σ Bool := do
  let token ← nextToken
  if token = mark then
    pure true
  else
    holdToken token
    pure false

/- Read the first member of an object, which has to be a tag. -/
def readTag
    (tag : String) : Reading σ String := do
  match ← nextToken with
  | .key name =>
      if name = tag then
        Reading.ofExcept (← nextValue).readString
      else
        Reading.fail (.misplacedTag tag ("key \"" ++ name ++ "\""))
  | other =>
      Reading.fail (.misplacedTag tag other.kind.text)

/- Read the tag of a node whose type is known. -/
def expectVariant
    (tag : String)
    (t : NodeType) : Reading σ Unit := do
  let found ← readTag tag
  if found = t.name then
    pure ()
  else
    Reading.fail (.wrongVariant t.name found)

/- No level or part is left. -/
def exhausted
    {α : Type} : Reading σ α :=
  Reading.fail (.malformed (depthMessage 0) none)

------------------------------------------------------------
-- Members and Elements
------------------------------------------------------------

/-
  Read the value of a member.  A node with a literal among its
  fields reads the first token of the value at once; the key
  is looked up after that.
-/
def readMember
    (t : NodeType)
    (decodeValue : Shape → Reading σ Tree)
    (key : String) : Reading σ Tree := do
  if t.readsAhead then
    let token ← nextValue
    match t.field? key with
    | none =>
        Reading.fail (.unexpectedKey key t.name)
    | some f =>
        Reading.mapError (·.within t.name key) do
          match f.shape with
          | .scalar type =>
              Reading.ofExcept (type.ofToken token)
          | shape =>
              holdToken token
              decodeValue shape
  else
    match t.field? key with
    | none =>
        Reading.fail (.unexpectedKey key t.name)
    | some f =>
        Reading.mapError (·.within t.name key)
          (decodeValue f.shape)

/-
  Read the members of an object to its end, and put the last
  one first.
-/
def readMembers
    (t : NodeType)
    (decodeValue : Shape → Reading σ Tree) :
    (parts : Nat) →
    (members : List (String × Tree)) →
    Reading σ (List (String × Tree))
  | 0, _ =>
      exhausted
  | parts + 1, members => do
      match ← nextKey with
      | none =>
          pure members
      | some key =>
          let value ← readMember t decodeValue key
          readMembers t decodeValue parts ((key, value) :: members)

/- Read the fields of a node, after its tag if it has one. -/
def readFields
    (t : NodeType)
    (decodeValue : Shape → Reading σ Tree)
    (parts : Nat) : Reading σ Tree := do
  let members ← readMembers t decodeValue parts []
  Reading.ofExcept (t.ofMembers members)

/- Read the elements of a list that is not empty. -/
def readItems
    (decodeItem : Reading σ Tree) :
    (parts : Nat) →
    (items : Array Tree) →
    Reading σ (Array Tree)
  | 0, _ =>
      exhausted
  | parts + 1, items => do
      let item ← Reading.mapError (·.atIndex items.size) decodeItem
      if ← closes .arrayClose then
        pure (items.push item)
      else
        readItems decodeItem parts (items.push item)

------------------------------------------------------------
-- Values
------------------------------------------------------------

/- Read a node whose type is known. -/
def readNode
    (t : NodeType)
    (decodeValue : Shape → Reading σ Tree)
    (parts : Nat) : Reading σ Tree := do
  expectMark .objectOpen
  let empty ← closes .objectClose
  match t.category.tag? with
  | none =>
      if empty then
        pure t.zero
      else
        readFields t decodeValue parts
  | some tag =>
      if empty then
        Reading.fail (.emptyObject t.name)
      else
        expectVariant tag t
        readFields t decodeValue parts

/- Read a node of a sum. -/
def readSum
    (sum : NodeSum)
    (decodeValue : Shape → Reading σ Tree)
    (parts : Nat) : Reading σ Tree := do
  expectMark .objectOpen
  if ← closes .objectClose then
    Reading.fail (.emptyObject sum.name)
  else
    let name ← readTag sum.tag
    match sum.variant? name with
    | none =>
        Reading.fail (.unknownVariant sum.name name)
    | some t =>
        readFields t decodeValue parts

/- Read a list. -/
def readList
    (decodeItem : Reading σ Tree)
    (parts : Nat) : Reading σ Tree := do
  expectMark .arrayOpen
  if ← closes .arrayClose then
    pure (.list [])
  else
    let items ← readItems decodeItem parts #[]
    pure (.list items.toList)

/-
  Decode a value of a shape, with at most so many nodes and
  lists within one another, of at most so many parts.
-/
def decodeWithin
    (parts : Nat) :
    (levels : Nat) →
    (shape : Shape) →
    Reading σ Tree
  | _, .scalar type => do
      let token ← nextValue
      Reading.ofExcept (type.ofToken token)
  | 0, _ =>
      exhausted
  | levels + 1, .node t =>
      readNode t (decodeWithin parts levels) parts
  | levels + 1, .sum sum =>
      readSum sum (decodeWithin parts levels) parts
  | levels + 1, .list elem =>
      readList (decodeWithin parts levels elem) parts

/- Decode a value of a shape. -/
def decode
    (shape : Shape) : Reading σ Tree :=
  fun s =>
    let enough := TokenSource.bound s + 1
    decodeWithin enough enough shape s

/- Check that nothing is left. -/
def finish : Reading σ Unit := do
  let token ← nextToken
  if token = .eof then
    pure ()
  else
    throw (Token.wrongShape "end of input" token)

/- Decode exactly one value. -/
def decodeDocument
    (shape : Shape) : Reading σ Tree := do
  let tree ← decode shape
  finish
  pure tree

end

end TreeWire
