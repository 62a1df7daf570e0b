import TreeWire.Command.Corpus

/-
  The program.  Called by the name of a corpus check it checks
  a corpus, and by any other name it carries out its command
  line.

  Key definitions include:
    * `main`
-/

namespace TreeWire

------------------------------------------------------------
-- Files
------------------------------------------------------------

/- An error of the system as an error of a file. -/
def fileError : IO.Error → FileError
  | .noFileOrDirectory .. => .notFound
  | .alreadyExists .. => .alreadyExists
  | .inappropriateType .. => .notDirectory
  | e => .other (toString e)

/- Do something with a file, and keep the error. -/
def attempt
    {α : Type}
    (action : IO α) : IO (Except FileError α) := do
  match ← action.toBaseIO with
  | .ok a => return .ok a
  | .error e => return .error (fileError e)

/- The kind of the entry that a path names. -/
def entryKind?
    (path : String) : IO (Option EntryKind) := do
  let place := (← IO.currentDir) / path
  if path.isEmpty || !(← place.pathExists) then
    return none
  else if ← place.isDir then
    return some .directory
  else
    return some .file

/- The names in a directory. -/
def entryNames
    (path : String) : IO (List String) := do
  let place := (← IO.currentDir) / path
  return (← place.readDir).toList.map (·.fileName)

/- Whether a path names a directory. -/
def namesDirectory
    (path : String) : IO Bool :=
  return (← entryKind? path) = some .directory

/- Read a file. -/
def readEntry
    (path : String) : IO (Except FileError (List UInt8)) := do
  if ← namesDirectory path then
    return .error .isDirectory
  else
    return (← attempt (IO.FS.readBinFile path)).map (·.toList)

/- Write a file. -/
def writeEntry
    (path : String)
    (bytes : List UInt8) : IO (Except FileError Unit) := do
  if ← namesDirectory path then
    return .error .isDirectory
  else
    attempt (IO.FS.writeBinFile path ⟨bytes.toArray⟩)

instance : FileAccess IO where
  kind? := entryKind?
  names := fun path => do
    match ← attempt (entryNames path) with
    | .ok names => return names
    | .error _ => return []
  read := readEntry
  write := writeEntry
  makeDirectory := fun path => attempt (IO.FS.createDir path)

------------------------------------------------------------
-- Program
------------------------------------------------------------

/- The name by which the program checks a corpus. -/
def corpusProgram : String :=
  "corpus-check"

/- The corpus, unless another one is given. -/
def defaultCorpus : String :=
  "fixtures"

/- Whether the program is called to check a corpus. -/
def checksCorpus : IO Bool := do
  return (← IO.appPath).fileStem = some corpusProgram

/- Print a report. -/
def printReport
    (report : Report) : IO UInt32 := do
  (← IO.getStdout).putStr report.output
  (← IO.getStderr).putStr report.problem
  return report.exit.toUInt32

end TreeWire

open TreeWire in
def main
    (arguments : List String) : IO UInt32 := do
  if ← checksCorpus then
    printReport (← checkCorpus (arguments.head?.getD defaultCorpus))
  else
    printReport (← runCommandLine arguments)
