import TreeWire.Declaration.Items
import TreeWire.Schema.Warning

/-
  The options of a field, a variant or a type that decide how
  documents carry it.

  Options stand in attributes named `serde`.  Of them, `rename`,
  `tag`, `default`, `skip` and `flatten` count; any other option
  is read and has no effect.

  Key definitions include:
    * `WireOptions`
    * `WireOptions.ofAttributes`
    * `WireOptions.wireName`
-/

namespace TreeWire

open Declaration
open TreeWire.Declaration.Parser
open TreeWire.Declaration.TokenTree

------------------------------------------------------------
-- Lists of Options
------------------------------------------------------------

/- The path of an option, and whether `::` is in front. -/
structure OptionPath where
  rooted : Bool
  names : List String
  deriving DecidableEq

namespace OptionPath

/- Whether a path is a single identifier. -/
def isNamed
    (p : OptionPath)
    (name : String) : Bool :=
  !p.rooted && p.names = [name]

/- Read a path, whose segments can be any words. -/
def parse : Parser OptionPath := do
  let rooted ← punct? "::"
  if ← sees seesAnyWord then
    let first ← anyWord
    let others ← manyWhile (seesPunct "::") do
      punct "::"
      anyWord
    return ⟨rooted, (first :: others).map Identifier.text⟩
  else if ← atEnd then
    failHere "expected nested attribute"
  else if ← sees seesLiteral then
    fail "unexpected literal in nested attribute, expected ident"
  else
    fail "unexpected token in nested attribute, expected ident"

end OptionPath

/-
  Read options with commas between them, so many at most, each
  after its path by a reader that changes a state.
-/
def optionsWithin
    {α : Type}
    (readOption : OptionPath → α → Parser α) :
    Nat → α → Parser α
  | 0, state =>
      pure state
  | count + 1, state => do
      let path ← OptionPath.parse
      let state ← readOption path state
      if ← atEnd then
        pure state
      else
        punct ","
        if ← atEnd then
          pure state
        else
          optionsWithin readOption count state

/- Read options with commas between them, to the end. -/
def options
    {α : Type}
    (readOption : OptionPath → α → Parser α)
    (state : α) : Parser α :=
  fun trees =>
    optionsWithin readOption (trees.length + 1) state trees

------------------------------------------------------------
-- Values of Options
------------------------------------------------------------

/- Read an equals sign and a string. -/
def stringValue : Parser String := do
  punct "="
  string

/- The names that an option gives for the two directions. -/
structure TwoNames where
  serialize : Option String
  deserialize : Option String

/- Read the name for one direction. -/
def readDirection
    (path : OptionPath)
    (names : TwoNames) : Parser TwoNames := do
  let value ← stringValue
  if path.isNamed "serialize" then
    return { names with serialize := some value }
  else if path.isNamed "deserialize" then
    return { names with deserialize := some value }
  else
    fail "expected `serialize` or `deserialize`"

/-
  Read a new name: one string, or one for each direction, both
  the same.
-/
def renameValue : Parser String := do
  if ← sees (seesPunct "=") then
    stringValue
  else
    let names ← within .parenthesis
      (options readDirection ⟨none, none⟩)
    match names.serialize, names.deserialize with
    | some a, some b =>
        if a = b then
          pure a
        else
          fail "the wire name must be the same in both directions"
    | _, _ =>
        fail "the wire name must be the same in both directions"

/- Read an option without effect, so many levels deep at most. -/
def ignoreOption
    (g : Grammar) : Nat → Parser Unit
  | 0 =>
      fail "nested too deep"
  | depth + 1 => do
      if ← punct? "=" then
        g.expr true
      else if ← sees (seesGroup .parenthesis) then
        within .parenthesis
          (options (fun _ _ => ignoreOption g depth) ())

------------------------------------------------------------
-- Wire Options
------------------------------------------------------------

/- The options that count. -/
structure WireOptions where
  rename : Option String
  tag : Option String
  hasDefault : Bool
  skip : Bool
  flatten : Bool
  deriving DecidableEq, Repr, Inhabited

namespace WireOptions

/- No option. -/
def none : WireOptions :=
  ⟨.none, .none, false, false, false⟩

/- Read one option after its path. -/
def readOption
    (g : Grammar)
    (path : OptionPath)
    (o : WireOptions) : Parser WireOptions := do
  if path.isNamed "rename" then
    return { o with rename := some (← renameValue) }
  else if path.isNamed "tag" then
    return { o with tag := some (← stringValue) }
  else if path.isNamed "default" then
    if ← sees (seesPunct "=") then
      fail "custom default functions are unsupported"
    else
      return { o with hasDefault := true }
  else if path.isNamed "skip" then
    return { o with skip := true }
  else if path.isNamed "flatten" then
    return { o with flatten := true }
  else
    fun trees => ignoreOption g (sizeAll trees + 1) trees
    return o

/- The options with those of an attribute. -/
def addAttribute
    (o : WireOptions)
    (a : Attribute) : Except Reason WireOptions :=
  match a.body with
  | .absent =>
      .error .argumentsMissing
  | .value =>
      .error .argumentsAssigned
  | .list [] =>
      .ok o
  | .list trees =>
      match options (readOption (grammarFor trees)) o trees with
      | .ok (o, _) => .ok o
      | .error e => .error (.badAttribute e)

/- The options in attributes; the first problem counts. -/
def ofAttributes
    (attributes : List Attribute) : Except Reason WireOptions :=
  (attributes.filter fun a => a.isNamed "serde").foldlM
    addAttribute none

------------------------------------------------------------
-- Wire Names
------------------------------------------------------------

/- Whether a character can stand in a wire name. -/
def isWireChar
    (c : Char) : Bool :=
  c ≠ '"' && c ≠ '\\' && 0x20 ≤ c.toNat
    && !(0x7f ≤ c.toNat && c.toNat ≤ 0x9f)

/- Whether a text can be a wire name. -/
def isWireName
    (name : String) : Bool :=
  !name.isEmpty && name.toList.all isWireChar

/- An identifier without the mark of a raw one. -/
def plainIdent
    (ident : String) : String :=
  if "r#".toList.isPrefixOf ident.toList then
    String.ofList (ident.toList.drop 2)
  else
    ident

/- The name in documents of what an identifier names. -/
def wireName
    (o : WireOptions)
    (ident : Identifier) : Except Reason String :=
  match o.rename with
  | .none =>
      .ok ident.word
  | some name =>
      if isWireName name then .ok name
      else .error (.unusableName name)

end WireOptions

end TreeWire
