import TreeWire.Command.Options
import TreeWire.Source.Basic

/-
  What a command line asks for.

  There are three commands.  `gen` writes the decoder unit of
  a schema, `schema` writes the schema itself, and `decode`
  reads documents.

  Key definitions include:
    * `Invocation`
    * `Invocation.parse`
-/

namespace TreeWire

------------------------------------------------------------
-- Settings
------------------------------------------------------------

/- What `gen` goes by. -/
structure GenSettings where
  schema : String
  out : Option String
  dryRun : Bool
  deriving DecidableEq, Repr, Inhabited

/- What `schema` goes by. -/
structure SchemaSettings where
  schema : String
  out : Option String
  deriving DecidableEq, Repr, Inhabited

/- Where in a file its documents are. -/
structure Framing where
  lineByLine : Bool
  pointer : Option String
  deriving DecidableEq, Repr, Inhabited

/- What `decode` goes by. -/
structure DecodeSettings where
  framing : Framing
  inputs : List String
  maxDepth : Nat
  out : Option String
  dryRun : Bool
  deriving DecidableEq, Repr, Inhabited

/- A command with its settings. -/
inductive Invocation where
  | gen (settings : GenSettings)
  | schema (settings : SchemaSettings)
  | decode (settings : DecodeSettings)
  deriving DecidableEq, Repr, Inhabited

------------------------------------------------------------
-- Commands
------------------------------------------------------------

/- The file with the schema, unless another one is given. -/
def defaultSchema : String :=
  "src/ast.rs"

/- Where to find the schema. -/
def schemaRule : OptionRule :=
  ⟨"schema", none, .one, .path⟩

/- Where to write. -/
def outRule : OptionRule :=
  ⟨"out", some 'o', .one, .path⟩

/- Only show the settings. -/
def dryRunRule : OptionRule :=
  .switch "no-op"

/- Every line is a document. -/
def lineByLineRule : OptionRule :=
  .switch "ndjson"

/- Where in a document its root is. -/
def pointerRule : OptionRule :=
  ⟨"json-pointer", none, .one, .text⟩

/- The files to decode. -/
def inputRule : OptionRule :=
  ⟨"input", some 'i', .many, .text⟩

/- How deep documents may be nested. -/
def maxDepthRule : OptionRule :=
  ⟨"max-depth", none, .one, .count⟩

namespace GenSettings

/- The options of `gen`. -/
def rules : List OptionRule :=
  [schemaRule, outRule, dryRunRule]

/- The settings that options give. -/
def ofOptions
    (given : List GivenOption) : GenSettings where
  schema := (valueOf? given "schema").getD defaultSchema
  out := valueOf? given "out"
  dryRun := isGiven given "no-op"

end GenSettings

namespace SchemaSettings

/- The options of `schema`. -/
def rules : List OptionRule :=
  [schemaRule, outRule]

/- The settings that options give. -/
def ofOptions
    (given : List GivenOption) : SchemaSettings where
  schema := (valueOf? given "schema").getD defaultSchema
  out := valueOf? given "out"

end SchemaSettings

namespace DecodeSettings

/- The options of `decode`. -/
def rules : List OptionRule :=
  [lineByLineRule, pointerRule, inputRule, maxDepthRule, outRule,
   dryRunRule]

/- The settings that options give.  There must be an input. -/
def ofOptions?
    (given : List GivenOption) : Option DecodeSettings :=
  match valuesOf given "input" with
  | [] =>
      none
  | inputs =>
      let depth := (valueOf? given "max-depth").bind readCount?
      some
        { framing :=
            { lineByLine := isGiven given "ndjson"
              pointer := valueOf? given "json-pointer" }
          inputs := inputs
          maxDepth := depth.getD defaultMaxDepth
          out := valueOf? given "out"
          dryRun := isGiven given "no-op" }

end DecodeSettings

------------------------------------------------------------
-- Reading
------------------------------------------------------------

namespace Invocation

/- The names of the commands. -/
def names : List String :=
  ["gen", "schema", "decode", "help"]

/- Read the arguments of a call for help. -/
def parseHelp : List String → Interruption
  | [] => .help
  | [name] => if names.contains name then .help else .misuse
  | _ => .misuse

/- Read a command line.  The command comes first. -/
def parse : List String → Except Interruption Invocation
  | [] =>
      .error .misuse
  | "gen" :: texts => do
      let given ← readOptions GenSettings.rules texts
      return .gen (GenSettings.ofOptions given)
  | "schema" :: texts => do
      let given ← readOptions SchemaSettings.rules texts
      return .schema (SchemaSettings.ofOptions given)
  | "decode" :: texts => do
      let given ← readOptions DecodeSettings.rules texts
      match DecodeSettings.ofOptions? given with
      | some settings => return .decode settings
      | none => .error .misuse
  | "help" :: texts =>
      .error (parseHelp texts)
  | text :: _ =>
      if (Argument.read [OptionRule.help] text).asksForHelp then
        .error .help
      else
        .error .misuse

end Invocation

end TreeWire
