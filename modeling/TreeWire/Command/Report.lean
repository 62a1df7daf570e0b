import TreeWire.Command.Documents
import TreeWire.Schema.Extraction

/-
  What a program leaves behind: two texts and an exit code.

  Key definitions include:
    * `CommandError`
    * `Report`
-/

namespace TreeWire

------------------------------------------------------------
-- Errors
------------------------------------------------------------

/- Why a command failed. -/
inductive CommandError where
  | inputs (error : InputError)
  | schemaUnread (path : String) (error : FileError)
  | schemaRefused (path : String) (error : ExtractError)
  | uncreated (path : String) (error : FileError)
  | unwritten (path : String) (error : FileError)
  | documents (failed total : Nat)
  | pattern (error : PatternError)
  | unopened (error : FileError)
  deriving DecidableEq, Repr, Inhabited

namespace CommandError

/- An error in words. -/
def message : CommandError → String
  | .inputs _ =>
      "failed to resolve input file paths"
  | .schemaUnread path _ =>
      "failed to read schema source " ++ path
  | .schemaRefused path _ =>
      "failed to extract schema from " ++ path
  | .uncreated path _ =>
      "failed to create " ++ path
  | .unwritten path _ =>
      "failed to write " ++ path
  | .documents failed total =>
      toString failed ++ " of " ++ toString total
        ++ " documents failed to decode"
  | .pattern error =>
      error.text
  | .unopened error =>
      error.text

/- What is behind an error, in words. -/
def cause? : CommandError → Option String
  | .inputs error => some error.text
  | .schemaUnread _ error => some error.text
  | .schemaRefused _ error => some error.message
  | .uncreated _ error => some error.text
  | .unwritten _ error => some error.text
  | .documents _ _ => none
  | .pattern _ => none
  | .unopened _ => none

/- Indent all lines of a text. -/
def indented
    (text : String) : String :=
  let body := text.toList.flatMap fun c =>
    if c = '\n' then "\n    ".toList else [c]
  "    " ++ String.ofList body

/- An error as it is shown, with its cause. -/
def text
    (e : CommandError) : String :=
  let cause :=
    match e.cause? with
    | none => ""
    | some cause => "\nCaused by:\n" ++ indented cause ++ "\n"
  "Error: " ++ e.message ++ "\n" ++ cause

end CommandError

------------------------------------------------------------
-- Reports
------------------------------------------------------------

/- What a program prints, and the code it ends with. -/
structure Report where
  exit : Nat
  output : String
  problem : String
  deriving DecidableEq, Repr, Inhabited

/- Lines, each with its end. -/
def endLines
    (lines : List String) : String :=
  String.join (lines.map (· ++ "\n"))

namespace Report

/- Lines were printed, and all went well. -/
def success
    (lines : List String) : Report :=
  ⟨0, endLines lines, ""⟩

/- Lines were printed, and something went wrong then. -/
def failure
    (lines : List String)
    (e : CommandError) : Report :=
  ⟨1, endLines lines, e.text⟩

/- The report on lines and on what came after them. -/
def ofResult
    (lines : List String) : Except CommandError Unit → Report
  | .ok () => success lines
  | .error e => failure lines e

end Report

end TreeWire
