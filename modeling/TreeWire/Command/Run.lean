import TreeWire.Command.Outline
import TreeWire.Command.Report
import TreeWire.Json.Printer
import TreeWire.Node.Encoding
import TreeWire.Schema.Encoding
import TreeWire.Unit.DecoderUnit

/-
  The commands.

  All documents are decoded before the first one is reported
  and written, so that what is written changes no result.

  Key definitions include:
    * `writeOutput`
    * `reportOutcomes`
    * `Invocation.run`
    * `runCommandLine`
-/

namespace TreeWire

section

variable {m : Type → Type} [Monad m] [FileAccess m]

------------------------------------------------------------
-- Output
------------------------------------------------------------

/- Write a file, in a directory that is made if need be. -/
def writeFile
    (path contents : String) : m (Except CommandError Unit) := do
  match Path.parent? path with
  | none =>
      write
  | some parent =>
      match ← createDirectories parent with
      | .error e => return .error (.uncreated parent e)
      | .ok () => write
where
  write : m (Except CommandError Unit) := do
    let bytes := contents.toUTF8.toList
    return (← FileAccess.write path bytes).mapError (.unwritten path)

/- Write a file, or print a text if there is none. -/
def writeOutput
    (out : Option String)
    (contents : String) : m Report := do
  match out with
  | none => return .success [contents]
  | some path => return .ofResult [] (← writeFile path contents)

------------------------------------------------------------
-- Schemas
------------------------------------------------------------

/- The schema in a file. -/
def loadSchema
    (path : String) : m (Except CommandError Schema) := do
  match ← readText path with
  | .error e =>
      return .error (.schemaUnread path e)
  | .ok source =>
      match extract source with
      | .error e => return .error (.schemaRefused path e)
      | .ok extraction => return .ok extraction.schema

/- Write what becomes of the schema in a file. -/
def writeSchema
    (path : String)
    (out : Option String)
    (render : Schema → String) : m Report := do
  match ← loadSchema path with
  | .error e => return .failure [] e
  | .ok schema => writeOutput out (render schema)

------------------------------------------------------------
-- Documents
------------------------------------------------------------

/- The lines on a document that passes. -/
def passLine
    (source : String) : String :=
  "✓ PASS: " ++ source

/- The lines on a document that fails. -/
def failLine
    (source : String) : String :=
  "✗ FAIL: " ++ source

/- The lines on an outcome. -/
def Outcome.lines
    (outcome : Outcome) : List String :=
  match outcome.result with
  | .ok _ => [passLine outcome.source]
  | .error e => [failLine outcome.source, "    " ++ e.text]

/- A number with at least four digits. -/
def fourDigits
    (n : Nat) : String :=
  let digits := (toString n).toList
  String.ofList (List.replicate (4 - digits.length) '0' ++ digits)

/- The file for a document. -/
def outputPath
    (directory : String)
    (number : Nat) : String :=
  Path.join directory (fourDigits number ++ ".json")

/- A project as it is written. -/
def projectText
    (tree : Tree) : String :=
  (tree.toJson documentShape).pretty

/- Write a document, if it is one and should be written. -/
def writeOutcome
    (out : Option String)
    (number : Nat)
    (outcome : Outcome) : m (Except CommandError Unit) := do
  match out, outcome.result with
  | some directory, .ok tree =>
      writeFile (outputPath directory number) (projectText tree)
  | _, _ =>
      return .ok ()

/-
  Report and write outcomes, numbered from a number on.  The
  first file that cannot be written is the end of it.
-/
def reportOutcomes
    (out : Option String) :
    (number : Nat) →
    List Outcome →
    m (List String × Except CommandError Unit)
  | _, [] =>
      return ([], .ok ())
  | number, outcome :: rest => do
      match ← writeOutcome out number outcome with
      | .error e =>
          return (outcome.lines, .error e)
      | .ok () =>
          let (lines, result) ← reportOutcomes out (number + 1) rest
          return (outcome.lines ++ lines, result)

/- How many documents failed. -/
def failureCount
    (outcomes : List Outcome) : Nat :=
  outcomes.countP Outcome.isFailure

/- The last line of a report. -/
def summaryLine
    (outcomes : List Outcome) : String :=
  let failed := failureCount outcomes
  toString (outcomes.length - failed) ++ " decoded, "
    ++ toString failed ++ " failed"

/- What the outcomes as a whole come to. -/
def verdict
    (outcomes : List Outcome) : Except CommandError Unit :=
  let failed := failureCount outcomes
  if failed = 0 then .ok ()
  else .error (.documents failed outcomes.length)

/- Decode documents, and report on them. -/
def runDecode
    (settings : DecodeSettings) : m Report := do
  match ← decodeInputs settings with
  | .error e =>
      return .failure [] (.inputs e)
  | .ok outcomes =>
      match ← reportOutcomes settings.out 0 outcomes with
      | (lines, .error e) =>
          return .failure lines e
      | (lines, .ok ()) =>
          return .ofResult (lines ++ [summaryLine outcomes])
            (verdict outcomes)

------------------------------------------------------------
-- Commands
------------------------------------------------------------

namespace Invocation

/- Whether a command should only show its settings. -/
def isDryRun : Invocation → Bool
  | .gen settings => settings.dryRun
  | .schema _ => false
  | .decode settings => settings.dryRun

/- Carry out a command. -/
def run
    (invocation : Invocation) : m Report := do
  if invocation.isDryRun then
    return ⟨0, "", invocation.outline.text⟩
  else
    match invocation with
    | .gen settings =>
        writeSchema settings.schema settings.out fun schema =>
          (DecoderUnit.ofSchema schema).text
    | .schema settings =>
        writeSchema settings.schema settings.out fun schema =>
          schema.toJson.pretty
    | .decode settings =>
        runDecode settings

end Invocation

/- How to call the program. -/
def usageText : String :=
  endLines
    ["Commands:",
     "  gen     [--schema FILE] [-o FILE] [--no-op]",
     "  schema  [--schema FILE] [-o FILE]",
     "  decode  -i FILE... [--ndjson] [--json-pointer POINTER]",
     "          [--max-depth COUNT] [-o DIRECTORY] [--no-op]"]

/- Carry out a command line. -/
def runCommandLine
    (arguments : List String) : m Report := do
  match Invocation.parse arguments with
  | .ok invocation => invocation.run
  | .error .help => return ⟨0, usageText, ""⟩
  | .error .misuse => return ⟨2, "", usageText⟩

end

end TreeWire
