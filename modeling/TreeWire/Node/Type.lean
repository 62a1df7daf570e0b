import TreeWire.Schema.Basic

/-
  The node types of program trees: expressions, statements,
  and the declarations that hold them.

  Each node type has a name, a category and a list of fields.
  An expression or a statement is written with a tag that
  names its node type.

  Key definitions include:
    * `NodeType`
    * `NodeSum`
    * `Shape`
    * `Field`
    * `NodeType.fields`
    * `NodeSum.variant?`
    * `Shape.ofName?`
-/

namespace TreeWire

------------------------------------------------------------
-- Node Types
------------------------------------------------------------

/- The node types, in declaration order. -/
inductive NodeType where
  | ident
  | basicLit
  | intLit
  | floatLit
  | boolLit
  | binaryExpr
  | unaryExpr
  | callExpr
  | indexExpr
  | selectorExpr
  | listLit
  | funcLit
  | ternaryExpr
  | exprStmt
  | assignStmt
  | declStmt
  | ifStmt
  | switchStmt
  | loopStmt
  | rangeLoopStmt
  | returnStmt
  | breakStmt
  | continueStmt
  | tryStmt
  | blockStmt
  | emptyStmt
  | project
  | package
  | sourceFile
  | typeSpec
  | constant
  | variableDecl
  | funcDecl
  | funcType
  | field
  | funcRef
  | interface
  | interfaceRef
  | classRef
  | classDecl
  | attr
  | constructorDecl
  | destructorDecl
  | methodDecl
  | trait
  | enumDecl
  | enumConstant
  | caseClause
  | catchClause
  deriving DecidableEq, Repr, Inhabited

namespace NodeType

/- All node types, in declaration order. -/
def all : List NodeType :=
  [.ident, .basicLit, .intLit, .floatLit, .boolLit,
   .binaryExpr, .unaryExpr, .callExpr, .indexExpr,
   .selectorExpr, .listLit, .funcLit, .ternaryExpr,
   .exprStmt, .assignStmt, .declStmt, .ifStmt, .switchStmt,
   .loopStmt, .rangeLoopStmt, .returnStmt, .breakStmt,
   .continueStmt, .tryStmt, .blockStmt, .emptyStmt,
   .project, .package, .sourceFile, .typeSpec, .constant,
   .variableDecl, .funcDecl, .funcType, .field, .funcRef,
   .interface, .interfaceRef, .classRef, .classDecl, .attr,
   .constructorDecl, .destructorDecl, .methodDecl, .trait,
   .enumDecl, .enumConstant, .caseClause, .catchClause]

/- The name of a node type. -/
def name : NodeType → String
  | .ident => "Ident"
  | .basicLit => "BasicLit"
  | .intLit => "IntLit"
  | .floatLit => "FloatLit"
  | .boolLit => "BoolLit"
  | .binaryExpr => "BinaryExpr"
  | .unaryExpr => "UnaryExpr"
  | .callExpr => "CallExpr"
  | .indexExpr => "IndexExpr"
  | .selectorExpr => "SelectorExpr"
  | .listLit => "ListLit"
  | .funcLit => "FuncLit"
  | .ternaryExpr => "TernaryExpr"
  | .exprStmt => "ExprStmt"
  | .assignStmt => "AssignStmt"
  | .declStmt => "DeclStmt"
  | .ifStmt => "IfStmt"
  | .switchStmt => "SwitchStmt"
  | .loopStmt => "LoopStmt"
  | .rangeLoopStmt => "RangeLoopStmt"
  | .returnStmt => "ReturnStmt"
  | .breakStmt => "BreakStmt"
  | .continueStmt => "ContinueStmt"
  | .tryStmt => "TryStmt"
  | .blockStmt => "BlockStmt"
  | .emptyStmt => "EmptyStmt"
  | .project => "Project"
  | .package => "Package"
  | .sourceFile => "SourceFile"
  | .typeSpec => "TypeSpec"
  | .constant => "Constant"
  | .variableDecl => "Variable"
  | .funcDecl => "FuncDecl"
  | .funcType => "FuncType"
  | .field => "Field"
  | .funcRef => "FuncRef"
  | .interface => "Interface"
  | .interfaceRef => "InterfaceRef"
  | .classRef => "ClassRef"
  | .classDecl => "ClassDecl"
  | .attr => "Attr"
  | .constructorDecl => "ConstructorDecl"
  | .destructorDecl => "DestructorDecl"
  | .methodDecl => "MethodDecl"
  | .trait => "Trait"
  | .enumDecl => "EnumDecl"
  | .enumConstant => "EnumConstant"
  | .caseClause => "CaseClause"
  | .catchClause => "CatchClause"

/- The category of a node type. -/
def category : NodeType → Category
  | .ident => .expression
  | .basicLit => .expression
  | .intLit => .expression
  | .floatLit => .expression
  | .boolLit => .expression
  | .binaryExpr => .expression
  | .unaryExpr => .expression
  | .callExpr => .expression
  | .indexExpr => .expression
  | .selectorExpr => .expression
  | .listLit => .expression
  | .funcLit => .expression
  | .ternaryExpr => .expression
  | .exprStmt => .statement
  | .assignStmt => .statement
  | .declStmt => .statement
  | .ifStmt => .statement
  | .switchStmt => .statement
  | .loopStmt => .statement
  | .rangeLoopStmt => .statement
  | .returnStmt => .statement
  | .breakStmt => .statement
  | .continueStmt => .statement
  | .tryStmt => .statement
  | .blockStmt => .statement
  | .emptyStmt => .statement
  | _ => .other

/- The node type with a name. -/
def ofName?
    (text : String) : Option NodeType :=
  all.find? fun t => t.name = text

end NodeType

------------------------------------------------------------
-- Sums of Node Types
------------------------------------------------------------

/- The sums: any expression, and any statement. -/
inductive NodeSum where
  | expr
  | stmt
  deriving DecidableEq, Repr, Inhabited

namespace NodeSum

/- All sums. -/
def all : List NodeSum :=
  [.expr, .stmt]

/- The name of a sum. -/
def name : NodeSum → String
  | .expr => "Expr"
  | .stmt => "Stmt"

/- The category of the nodes in a sum. -/
def category : NodeSum → Category
  | .expr => .expression
  | .stmt => .statement

/- The key that names the node type of a value in a sum. -/
def tag : NodeSum → String
  | .expr => "expression_name"
  | .stmt => "statement_name"

/- The sum with a name. -/
def ofName?
    (text : String) : Option NodeSum :=
  all.find? fun s => s.name = text

/- The node type in a sum that a tag names. -/
def variant?
    (s : NodeSum)
    (text : String) : Option NodeType :=
  NodeType.all.find? fun t =>
    t.category = s.category && t.name = text

end NodeSum

------------------------------------------------------------
-- Shapes and Fields
------------------------------------------------------------

/- What a value is: a literal, a node, or a list of values. -/
inductive Shape where
  | scalar (type : ScalarType)
  | node (type : NodeType)
  | sum (sum : NodeSum)
  | list (elem : Shape)
  deriving DecidableEq, Repr, Inhabited

namespace Shape

/- Whether values of a shape are literals. -/
def isScalar : Shape → Bool
  | .scalar _ => true
  | _ => false

/- The node type or sum with a name. -/
def ofName?
    (text : String) : Option Shape :=
  match NodeType.ofName? text with
  | some t => some (.node t)
  | none => (NodeSum.ofName? text).map .sum

end Shape

/-
  A field of a node type.  A field that documents do not carry
  is missing from every decoded node, and never written.
-/
structure Field where
  key : String
  shape : Shape
  presence : Presence
  carried : Bool
  deriving DecidableEq, Repr, Inhabited

namespace Field

/- A field that has to be present. -/
def required
    (key : String)
    (shape : Shape) : Field :=
  ⟨key, shape, .required, true⟩

/- A field that may be missing. -/
def optional
    (key : String)
    (shape : Shape) : Field :=
  ⟨key, shape, .optional, true⟩

/- A field with a default. -/
def defaulted
    (key : String)
    (shape : Shape) : Field :=
  ⟨key, shape, .defaulted, true⟩

/- A list, empty by default. -/
def sequence
    (key : String)
    (elem : Shape) : Field :=
  ⟨key, .list elem, .defaulted, true⟩

/- A field that documents do not carry. -/
def transient
    (key : String)
    (shape : Shape) : Field :=
  ⟨key, shape, .optional, false⟩

end Field

------------------------------------------------------------
-- Fields of Node Types
------------------------------------------------------------

namespace NodeType

/- The fields of a node type, in declaration order. -/
def fields : NodeType → List Field
  | .ident =>
      [.required "name" (.scalar .string)]
  | .basicLit =>
      [.required "kind" (.scalar .string),
       .required "value" (.scalar .string)]
  | .intLit =>
      [.required "value" (.scalar .int64)]
  | .floatLit =>
      [.required "value" (.scalar .float64)]
  | .boolLit =>
      [.required "value" (.scalar .bool)]
  | .binaryExpr =>
      [.required "left" (.sum .expr),
       .required "operator" (.scalar .string),
       .required "right" (.sum .expr)]
  | .unaryExpr =>
      [.required "operator" (.scalar .string),
       .required "operand" (.sum .expr)]
  | .callExpr =>
      [.required "function" (.sum .expr),
       .sequence "arguments" (.sum .expr)]
  | .indexExpr =>
      [.required "target" (.sum .expr),
       .required "index" (.sum .expr)]
  | .selectorExpr =>
      [.required "target" (.sum .expr),
       .required "field" (.scalar .string)]
  | .listLit =>
      [.sequence "elements" (.sum .expr)]
  | .funcLit =>
      [.required "type" (.node .funcType),
       .sequence "body" (.sum .stmt)]
  | .ternaryExpr =>
      [.required "condition" (.sum .expr),
       .required "then" (.sum .expr),
       .required "else" (.sum .expr)]
  | .exprStmt =>
      [.required "expression" (.sum .expr)]
  | .assignStmt =>
      [.sequence "lhs" (.sum .expr),
       .required "operator" (.scalar .string),
       .sequence "rhs" (.sum .expr)]
  | .declStmt =>
      [.sequence "variables" (.node .variableDecl)]
  | .ifStmt =>
      [.optional "init" (.sum .stmt),
       .required "condition" (.sum .expr),
       .sequence "body" (.sum .stmt),
       .optional "else" (.sum .stmt)]
  | .switchStmt =>
      [.optional "tag" (.sum .expr),
       .sequence "cases" (.node .caseClause)]
  | .loopStmt =>
      [.optional "init" (.sum .stmt),
       .optional "condition" (.sum .expr),
       .optional "post" (.sum .stmt),
       .sequence "body" (.sum .stmt)]
  | .rangeLoopStmt =>
      [.optional "key" (.sum .expr),
       .optional "value" (.sum .expr),
       .required "range" (.sum .expr),
       .sequence "body" (.sum .stmt)]
  | .returnStmt =>
      [.sequence "results" (.sum .expr)]
  | .breakStmt =>
      [.optional "label" (.scalar .string)]
  | .continueStmt =>
      [.optional "label" (.scalar .string)]
  | .tryStmt =>
      [.sequence "body" (.sum .stmt),
       .sequence "catches" (.node .catchClause),
       .sequence "finally" (.sum .stmt)]
  | .blockStmt =>
      [.sequence "statements" (.sum .stmt)]
  | .emptyStmt =>
      []
  | .project =>
      [.required "name" (.scalar .string),
       .sequence "languages" (.scalar .string),
       .sequence "packages" (.node .package)]
  | .package =>
      [.required "name" (.scalar .string),
       .required "path" (.scalar .string),
       .sequence "files" (.node .sourceFile)]
  | .sourceFile =>
      [.required "path" (.scalar .string),
       .defaulted "lines" (.scalar .int64),
       .sequence "imports" (.scalar .string),
       .sequence "types" (.node .typeSpec),
       .sequence "constants" (.node .constant),
       .sequence "variables" (.node .variableDecl),
       .sequence "functions" (.node .funcDecl),
       .sequence "interfaces" (.node .interface),
       .sequence "classes" (.node .classDecl),
       .sequence "enums" (.node .enumDecl),
       .sequence "traits" (.node .trait),
       .sequence "statements" (.sum .stmt),
       .transient "checksum" (.scalar .string)]
  | .typeSpec =>
      [.required "name" (.scalar .string),
       .required "type" (.scalar .string)]
  | .constant =>
      [.required "name" (.scalar .string),
       .optional "type" (.scalar .string),
       .optional "value" (.sum .expr)]
  | .variableDecl =>
      [.sequence "names" (.scalar .string),
       .optional "type" (.scalar .string),
       .sequence "values" (.sum .expr)]
  | .funcDecl =>
      [.required "name" (.scalar .string),
       .optional "visibility" (.scalar .string),
       .optional "receiver" (.node .field),
       .required "type" (.node .funcType),
       .sequence "body" (.sum .stmt)]
  | .funcType =>
      [.sequence "params" (.node .field),
       .sequence "results" (.node .field),
       .defaulted "variadic" (.scalar .bool)]
  | .field =>
      [.sequence "names" (.scalar .string),
       .required "type" (.scalar .string)]
  | .funcRef =>
      [.required "name" (.scalar .string),
       .required "type" (.node .funcType)]
  | .interface =>
      [.required "name" (.scalar .string),
       .sequence "methods" (.node .funcRef),
       .sequence "embeds" (.node .interfaceRef)]
  | .interfaceRef =>
      [.required "name" (.scalar .string)]
  | .classRef =>
      [.required "name" (.scalar .string)]
  | .classDecl =>
      [.required "name" (.scalar .string),
       .required "visibility" (.scalar .string),
       .sequence "extends" (.node .classRef),
       .sequence "implements" (.node .interfaceRef),
       .sequence "attributes" (.node .attr),
       .sequence "constructors" (.node .constructorDecl),
       .optional "destructor" (.node .destructorDecl),
       .sequence "methods" (.node .methodDecl),
       .defaulted "is_abstract" (.scalar .bool)]
  | .attr =>
      [.required "name" (.scalar .string),
       .optional "type" (.scalar .string),
       .optional "visibility" (.scalar .string),
       .optional "value" (.sum .expr),
       .defaulted "is_static" (.scalar .bool)]
  | .constructorDecl =>
      [.optional "visibility" (.scalar .string),
       .sequence "params" (.node .field),
       .sequence "body" (.sum .stmt)]
  | .destructorDecl =>
      [.sequence "body" (.sum .stmt)]
  | .methodDecl =>
      [.required "name" (.scalar .string),
       .optional "visibility" (.scalar .string),
       .required "type" (.node .funcType),
       .sequence "body" (.sum .stmt),
       .defaulted "is_static" (.scalar .bool),
       .defaulted "is_abstract" (.scalar .bool)]
  | .trait =>
      [.required "name" (.scalar .string),
       .sequence "methods" (.node .funcRef)]
  | .enumDecl =>
      [.required "name" (.scalar .string),
       .sequence "constants" (.node .enumConstant)]
  | .enumConstant =>
      [.required "name" (.scalar .string),
       .optional "value" (.sum .expr)]
  | .caseClause =>
      [.sequence "values" (.sum .expr),
       .sequence "body" (.sum .stmt)]
  | .catchClause =>
      [.optional "name" (.scalar .string),
       .sequence "types" (.scalar .string),
       .sequence "body" (.sum .stmt)]

/-
  Whether some field that documents carry is a literal.  Such
  a node reads the first token of a value before it looks at
  the key.
-/
def readsAhead
    (t : NodeType) : Bool :=
  t.fields.any fun f => f.carried && f.shape.isScalar

/- The field that a key names. -/
def field?
    (t : NodeType)
    (key : String) : Option Field :=
  t.fields.find? fun f => f.carried && f.key = key

end NodeType

end TreeWire
