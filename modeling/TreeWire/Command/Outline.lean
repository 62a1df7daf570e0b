import TreeWire.Command.Invocation
import TreeWire.Text.Quoted

/-
  Settings as an indented outline, for a look at what a
  command line was taken for.

  Key definitions include:
    * `Outline`
    * `Outline.text`
    * `Invocation.outline`
-/

namespace TreeWire

------------------------------------------------------------
-- Outlines
------------------------------------------------------------

/- A value by its parts. -/
inductive Outline where
  | leaf (text : String)
  | wrapped (name : String) (inner : Outline)
  | record (name : String) (fields : List (String × Outline))
  | list (items : List Outline)
  deriving Repr, Inhabited

namespace Outline

/- A value that is there or not. -/
def optional : Option Outline → Outline
  | none => .leaf "None"
  | some inner => .wrapped "Some" inner

/- A truth value. -/
def bool : Bool → Outline
  | true => .leaf "true"
  | false => .leaf "false"

/- A line, one level further in. -/
def indent
    (line : String) : String :=
  "    " ++ line

/- Put a comma after the last line. -/
def withComma : List String → List String
  | [] => []
  | [line] => [line ++ ","]
  | line :: lines => line :: withComma lines

/- Put a label in front of the first line. -/
def withLabel
    (label : String) : List String → List String
  | [] => []
  | line :: lines => (label ++ ": " ++ line) :: lines

/- Lines as one part of a whole. -/
def asPart
    (lines : List String) : List String :=
  (withComma lines).map indent

mutual

/- The lines of an outline. -/
def lines : Outline → List String
  | .leaf text =>
      [text]
  | .wrapped name inner =>
      (name ++ "(") :: asPart (lines inner) ++ [")"]
  | .record name fields =>
      (name ++ " \x7b") :: fieldLines fields ++ ["\x7d"]
  | .list items =>
      "[" :: itemLines items ++ ["]"]

/- The lines of fields. -/
def fieldLines : List (String × Outline) → List String
  | [] =>
      []
  | (label, value) :: fields =>
      asPart (withLabel label (lines value)) ++ fieldLines fields

/- The lines of items. -/
def itemLines : List Outline → List String
  | [] =>
      []
  | item :: items =>
      asPart (lines item) ++ itemLines items

end

/- An outline in full, with its last line ended. -/
def text
    (outline : Outline) : String :=
  String.join ((lines outline).map (· ++ "\n"))

end Outline

------------------------------------------------------------
-- Settings
------------------------------------------------------------

/- A file path. -/
def pathOutline
    (path : String) : Outline :=
  .leaf (quotedPath path)

/- A text. -/
def textOutline
    (text : String) : Outline :=
  .leaf (quoted text)

/- Where the schema comes from. -/
def schemaOutline
    (path : String) : Outline :=
  .record "SchemaSettings" [("schema", pathOutline path)]

namespace GenSettings

/- The outline of the settings. -/
def outline
    (s : GenSettings) : Outline :=
  .record "GenOut"
    [("schema_settings", schemaOutline s.schema),
     ("out", .optional (s.out.map pathOutline)),
     ("no_op", .bool s.dryRun)]

end GenSettings

namespace SchemaSettings

/- The outline of the settings. -/
def outline
    (s : SchemaSettings) : Outline :=
  .record "SchemaOut"
    [("schema_settings", schemaOutline s.schema),
     ("out", .optional (s.out.map pathOutline))]

end SchemaSettings

namespace DecodeSettings

/- The outline of where the documents come from. -/
def inputOutline
    (s : DecodeSettings) : Outline :=
  .record "InputSettings"
    [("ndjson", .bool s.framing.lineByLine),
     ("json_pointer",
       .optional (s.framing.pointer.map textOutline)),
     ("input", .list (s.inputs.map textOutline))]

/- The outline of the settings. -/
def outline
    (s : DecodeSettings) : Outline :=
  .record "DecodeOut"
    [("input_settings", s.inputOutline),
     ("max_depth", .leaf (toString s.maxDepth)),
     ("out", .optional (s.out.map pathOutline)),
     ("no_op", .bool s.dryRun)]

end DecodeSettings

namespace Invocation

/- The outline of a command. -/
def commandOutline : Invocation → Outline
  | .gen settings => .wrapped "Gen" settings.outline
  | .schema settings => .wrapped "Schema" settings.outline
  | .decode settings => .wrapped "Decode" settings.outline

/- The outline of a command line. -/
def outline
    (invocation : Invocation) : Outline :=
  .record "CommandLineInterface"
    [("cmd", invocation.commandOutline)]

end Invocation

end TreeWire
