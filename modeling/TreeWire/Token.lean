import TreeWire.DecodeError
import TreeWire.Number.FloatText

/-
  Tokens of JSON documents, and the values of their literals.

  A literal keeps its text, unescaped for strings, and its
  kind.  Reading a literal as a value demands exactly the
  right kind; nothing is converted from one kind to another.

  Key definitions include:
    * `LiteralKind`
    * `Literal`
    * `Token`
    * `TokenKind`
    * `Token.readString`
    * `Token.readInt`
    * `Token.readFloat`
    * `Token.readBool`
-/

namespace TreeWire

------------------------------------------------------------
-- Literals
------------------------------------------------------------

/- The kinds of literals. -/
inductive LiteralKind where
  | string
  | int
  | float
  | bool
  | null
  deriving DecidableEq, Repr, Inhabited

namespace LiteralKind

/- A literal kind in words. -/
def text : LiteralKind → String
  | .string => "string"
  | .int => "int"
  | .float => "float"
  | .bool => "bool"
  | .null => "null"

end LiteralKind

/- The text of a literal and its kind. -/
structure Literal where
  kind : LiteralKind
  text : String
  deriving DecidableEq, Repr, Inhabited

------------------------------------------------------------
-- Tokens
------------------------------------------------------------

/- The tokens of a document; `eof` stands after its end. -/
inductive Token where
  | objectOpen
  | objectClose
  | arrayOpen
  | arrayClose
  | key (name : String)
  | literal (lit : Literal)
  | eof
  deriving DecidableEq, Repr, Inhabited

/- The kinds of tokens. -/
inductive TokenKind where
  | objectOpen
  | objectClose
  | arrayOpen
  | arrayClose
  | key
  | literal (kind : LiteralKind)
  | eof
  deriving DecidableEq, Repr, Inhabited

namespace TokenKind

/- A token kind in words. -/
def text : TokenKind → String
  | .objectOpen => "object"
  | .objectClose => "'\x7d'"
  | .arrayOpen => "array"
  | .arrayClose => "']'"
  | .key => "key"
  | .literal kind => kind.text
  | .eof => "end of input"

end TokenKind

namespace Token

/- The kind of a token. -/
def kind : Token → TokenKind
  | .objectOpen => .objectOpen
  | .objectClose => .objectClose
  | .arrayOpen => .arrayOpen
  | .arrayClose => .arrayClose
  | .key _ => .key
  | .literal lit => .literal lit.kind
  | .eof => .eof

/- Whether a token starts a value. -/
def startsValue : Token → Bool
  | .objectOpen => true
  | .arrayOpen => true
  | .literal _ => true
  | _ => false

/- The error of a token that stands where another should. -/
def wrongShape
    (expected : String)
    (found : Token) : DecodeError :=
  .here (.wrongShape expected found.kind.text)

------------------------------------------------------------
-- Values of Literals
------------------------------------------------------------

/- The text of a literal of the given kind. -/
def literalText
    (expected : LiteralKind)
    (token : Token) : Except DecodeError String :=
  let mismatch :=
    DecodeError.here (.typeMismatch expected.text token.kind.text)
  match token with
  | .literal lit =>
      if lit.kind = expected then .ok lit.text
      else .error mismatch
  | _ =>
      .error mismatch

/- A token as a text. -/
def readString
    (token : Token) : Except DecodeError String :=
  token.literalText .string

/- A token as a 64-bit integer. -/
def readInt
    (token : Token) : Except DecodeError Int64 :=
  match token.literalText .int with
  | .error e =>
      .error e
  | .ok text =>
      match readInt64? text with
      | some n => .ok n
      | none => .error (.here (.invalidLiteral "int64" text))

/- A token as a finite double. -/
def readFloat
    (token : Token) : Except DecodeError Binary64 :=
  match token.literalText .float with
  | .error e =>
      .error e
  | .ok text =>
      match readFloat? text with
      | some x => .ok x
      | none => .error (.here (.invalidLiteral "float64" text))

/- A token as a truth value; only the word `true` is true. -/
def readBool
    (token : Token) : Except DecodeError Bool :=
  match token.literalText .bool with
  | .error e => .error e
  | .ok text => .ok (text == "true")

end Token

end TreeWire
