import TreeWire.Schema.Model
import TreeWire.Schema.WireOptions
import TreeWire.Text.SnakeCase
import TreeWire.Unit.Line

/-
  The methods that decode the types of a schema.

  A node type has a method that reads its object, and one that
  reads its attributes.  A sum type has a method that picks
  the attributes by tag.  A type that stands in sequences has
  a method that reads a sequence.

  Key definitions include:
    * `decodeName`
    * `sumMethod`
    * `nodeMethod`
    * `attrsMethod`
    * `arrayMethod`
    * `scalarArrayMethod`
-/

namespace TreeWire

------------------------------------------------------------
-- Names
------------------------------------------------------------

/- The name of the method that decodes a type. -/
def decodeName
    (type : String) : String :=
  "decode_" ++ snakeCase type

/- The name of the method that decodes attributes. -/
def attrsName
    (type : String) : String :=
  decodeName type ++ "_attrs"

/- The name of the method that decodes a sequence of nodes. -/
def arrayName
    (type : String) : String :=
  decodeName type ++ "_array"

/- The name of the method that decodes a scalar sequence. -/
def scalarArrayName
    (type : ScalarType) : String :=
  "decode_" ++ type.smallName ++ "_array"

/- The name of the method that decodes a sequence. -/
def elemArrayName : ElemType → String
  | .scalar type => scalarArrayName type
  | .node name => arrayName name

/- The variable that holds a field until its node is built. -/
def localName
    (f : FieldDescriptor) : String :=
  "f_" ++ WireOptions.plainIdent f.name

------------------------------------------------------------
-- Objects
------------------------------------------------------------

/- Read the opening brace, and return if nothing follows. -/
def openObject
    (onEmpty : List Piece) : List Line :=
  [.plain 2 "self.assert_new_object()?;",
   .plain 2 "if self.is_empty_object()? \x7b",
   ⟨3, [.code "return "] ++ onEmpty ++ [.code ";"]⟩,
   .plain 2 "\x7d"]

/- The error of an object without a tag. -/
def emptyError
    (name : String) : List Piece :=
  [.code "Err(DecodeError::empty_discriminant_object(",
   .literal name, .code "))"]

/- The line of a variant. -/
def variantLine
    (sum : SumType)
    (v : Variant) : Line :=
  ⟨3, [.literal v.wireName,
    .code (" => Ok(" ++ sum.name ++ "::" ++ v.name ++ "(self."),
    .call (attrsName v.node), .code "()?)),"]⟩

/- The method that decodes a sum type. -/
def sumMethod
    (sum : SumType) : Method where
  name := decodeName sum.name
  result := sum.name
  body :=
    openObject (emptyError sum.name)
      ++ [⟨2, [.code "let name = self.read_discriminant(",
            .literal sum.tag, .code ")?;"]⟩,
          .plain 2 "match name.as_str() \x7b"]
      ++ sum.variants.map (variantLine sum)
      ++ [⟨3, [.code "other => Err(DecodeError::unknown_variant(",
            .literal sum.name, .code ", other)),"]⟩,
          .plain 2 "\x7d"]

/- The check of the tag of a node type. -/
def expectLines
    (node : NodeSchema) : List Line :=
  match node.category.tag?, node.variantName with
  | some tag, some variant =>
      [⟨2, [.code "self.expect_variant(", .literal tag, .code ", ",
        .literal variant, .code ")?;"]⟩]
  | _, _ =>
      []

/- The method that decodes a node type. -/
def nodeMethod
    (node : NodeSchema) : Method where
  name := decodeName node.name
  result := node.name
  body :=
    openObject
        (if node.category.isSum then emptyError node.name
         else [.code ("Ok(" ++ node.name ++ "::default())")])
      ++ expectLines node
      ++ [⟨2, [.code "self.", .call (attrsName node.name),
            .code "()"]⟩]

------------------------------------------------------------
-- Attributes
------------------------------------------------------------

/- The hop that an error in a field gets. -/
def hopPieces
    (node : NodeSchema)
    (f : FieldDescriptor) : List Piece :=
  [.code ".map_err(|e| e.within(", .literal node.name, .code ", ",
   .literal f.wireName, .code "))?"]

/- The value of a field. -/
def valuePieces
    (node : NodeSchema)
    (f : FieldDescriptor) : List Piece :=
  match f.kind with
  | .scalar type =>
      .code ("token." ++ type.conversion ++ "()")
        :: hopPieces node f
  | .nested target =>
      let value :=
        [.code "self.", .call (decodeName target), .code "()"]
          ++ hopPieces node f
      if f.boxed then
        [.code "Box::new("] ++ value ++ [.code ")"]
      else
        value
  | .nestedArray elem =>
      [.code "self.", .call (elemArrayName elem), .code "()"]
        ++ hopPieces node f

/- The lines that read one attribute. -/
def attributeLines
    (node : NodeSchema)
    (f : FieldDescriptor) : List Line :=
  [⟨4, [.literal f.wireName, .code " => \x7b"]⟩]
    ++ (if node.hasScalar && !f.isScalar then
          [.plain 5 "self.scan.back(token);"]
        else
          [])
    ++ [⟨5, [.code (localName f ++ " = Some(")] ++ valuePieces node f
          ++ [.code ");"]⟩,
        .plain 4 "\x7d"]

/- The lines that read all attributes. -/
def readLines
    (node : NodeSchema) : List Line :=
  if node.attributes.isEmpty then
    [.plain 2 "if let Some(key) = self.scan.next_key()? \x7b",
     ⟨3, [.code "return Err(DecodeError::unexpected_key(&key, ",
       .literal node.name, .code "));"]⟩,
     .plain 2 "\x7d"]
  else
    (node.attributes.map fun f =>
        .plain 2 ("let mut " ++ localName f ++ " = None;"))
      ++ [.plain 2 "while let Some(key) = self.scan.next_key()? \x7b"]
      ++ (if node.hasScalar then
            [.plain 3 "let token = self.scan.next_value()?;"]
          else
            [])
      ++ [.plain 3 "match key.as_str() \x7b"]
      ++ (node.attributes.map (attributeLines node)).flatten
      ++ [⟨4, [.code
              "other => return Err(DecodeError::unexpected_key(other, ",
            .literal node.name, .code ")),"]⟩,
          .plain 3 "\x7d",
          .plain 2 "\x7d"]

/- The line that puts a field into its node. -/
def fillLine
    (node : NodeSchema)
    (f : FieldDescriptor) : Line :=
  match f.presence with
  | .required =>
      ⟨3, [.code (f.name ++ ": " ++ localName f
          ++ ".ok_or_else(|| DecodeError::missing_field("),
        .literal node.name, .code ", ", .literal f.wireName,
        .code "))?,"]⟩
  | .optional =>
      .plain 3 (f.name ++ ": " ++ localName f ++ ",")
  | .defaulted =>
      .plain 3 (f.name ++ ": " ++ localName f
        ++ ".unwrap_or_default(),")

/- The method that decodes the attributes of a node type. -/
def attrsMethod
    (node : NodeSchema) : Method where
  name := attrsName node.name
  result := node.name
  body :=
    readLines node
      ++ [.plain 2 ("Ok(" ++ node.name ++ " \x7b")]
      ++ node.attributes.map (fillLine node)
      ++ node.skipped.map
        (fun name => .plain 3 (name ++ ": Default::default(),"))
      ++ [.plain 2 "\x7d)"]

------------------------------------------------------------
-- Sequences
------------------------------------------------------------

/- The lines that read a sequence. -/
def arrayLines
    (item : List Piece) : List Line :=
  [.plain 2 "self.assert_new_array()?;",
   .plain 2 "let mut items = Vec::new();",
   .plain 2 "if self.is_empty_array()? \x7b",
   .plain 3 "return Ok(items);",
   .plain 2 "\x7d",
   .plain 2 "loop \x7b",
   ⟨3, [.code "let item = "] ++ item
     ++ [.code ".map_err(|e| e.at_index(items.len()))?;"]⟩,
   .plain 3 "items.push(item);",
   .plain 3 "if self.is_end_array()? \x7b",
   .plain 4 "break;",
   .plain 3 "\x7d",
   .plain 2 "\x7d",
   .plain 2 "Ok(items)"]

/- The method that decodes a sequence of nodes. -/
def arrayMethod
    (type : String) : Method where
  name := arrayName type
  result := "Vec<" ++ type ++ ">"
  body :=
    arrayLines [.code "self.", .call (decodeName type), .code "()"]

/- The method that decodes a sequence of scalars. -/
def scalarArrayMethod
    (type : ScalarType) : Method where
  name := scalarArrayName type
  result := "Vec<" ++ type.typeName ++ ">"
  body :=
    arrayLines
      [.code ("self.scan.next_value().and_then(|t| t."
        ++ type.conversion ++ "())")]

end TreeWire
