import TreeWire.Json.Basic

/-
  JSON texts of trees: one without any blank, and one with a
  member or element a line, indented by two spaces a level.

  Key definitions include:
    * `Json.escape`
    * `Json.compact`
    * `Json.pretty`
-/

namespace TreeWire

namespace Json

------------------------------------------------------------
-- Literals
------------------------------------------------------------

/-
  A character as it stands in a string.  Quotation marks,
  backslashes and control characters are escaped, all else
  stands as it is.
-/
def escape
    (c : Char) : List Char :=
  if c = '"' then ['\\', '"']
  else if c = '\\' then ['\\', '\\']
  else if c = Char.ofNat 8 then ['\\', 'b']
  else if c = Char.ofNat 12 then ['\\', 'f']
  else if c = '\n' then ['\\', 'n']
  else if c = '\r' then ['\\', 'r']
  else if c = '\t' then ['\\', 't']
  else if c.toNat < 16 then
    ['\\', 'u', '0', '0', '0'] ++ hexDigits c.toNat
  else if c.toNat < 32 then
    ['\\', 'u', '0', '0'] ++ hexDigits c.toNat
  else
    [c]

/- A string between quotation marks. -/
def writeString
    (s : String) : List Char :=
  '"' :: (s.toList.flatMap escape ++ ['"'])

/- A literal; all but strings stand as their text. -/
def writeLiteral
    (lit : Literal) : List Char :=
  if lit.kind = .string then
    writeString lit.text
  else
    lit.text.toList

------------------------------------------------------------
-- Compact Text
------------------------------------------------------------

mutual

/- The characters of a tree without any blank. -/
def writeCompact : Json → List Char
  | .literal lit =>
      writeLiteral lit
  | .array items =>
      '[' :: (writeCompactItems items ++ [']'])
  | .object members =>
      '\x7b' :: (writeCompactMembers members ++ ['\x7d'])

/- Array elements between commas. -/
def writeCompactItems : List Json → List Char
  | [] =>
      []
  | [item] =>
      item.writeCompact
  | item :: items =>
      item.writeCompact ++ ',' :: writeCompactItems items

/- Object members between commas. -/
def writeCompactMembers : List (String × Json) → List Char
  | [] =>
      []
  | [(key, value)] =>
      writeString key ++ ':' :: value.writeCompact
  | (key, value) :: members =>
      writeString key ++ ':' :: (value.writeCompact
        ++ ',' :: writeCompactMembers members)

end

/- The text of a tree without any blank. -/
def compact
    (j : Json) : String :=
  String.ofList j.writeCompact

------------------------------------------------------------
-- Indented Text
------------------------------------------------------------

/- A new line at a level of nesting. -/
def newLine
    (level : Nat) : List Char :=
  '\n' :: List.replicate (2 * level) ' '

mutual

/- The characters of a tree at a level of nesting. -/
def writePretty
    (level : Nat) :
    Json → List Char
  | .literal lit =>
      writeLiteral lit
  | .array [] =>
      ['[', ']']
  | .array (item :: items) =>
      '[' :: (writePrettyItems (level + 1) (item :: items)
        ++ newLine level ++ [']'])
  | .object [] =>
      ['\x7b', '\x7d']
  | .object (member :: members) =>
      '\x7b' :: (writePrettyMembers (level + 1) (member :: members)
        ++ newLine level ++ ['\x7d'])

/- Array elements, a line each. -/
def writePrettyItems
    (level : Nat) :
    List Json → List Char
  | [] =>
      []
  | [item] =>
      newLine level ++ item.writePretty level
  | item :: items =>
      newLine level ++ item.writePretty level
        ++ ',' :: writePrettyItems level items

/- Object members, a line each. -/
def writePrettyMembers
    (level : Nat) :
    List (String × Json) → List Char
  | [] =>
      []
  | [(key, value)] =>
      newLine level ++ writeString key
        ++ ':' :: ' ' :: value.writePretty level
  | (key, value) :: members =>
      newLine level ++ writeString key
        ++ ':' :: ' ' :: (value.writePretty level
          ++ ',' :: writePrettyMembers level members)

end

/- The text of a tree with a member or element a line. -/
def pretty
    (j : Json) : String :=
  String.ofList (j.writePretty 0)

end Json

end TreeWire
