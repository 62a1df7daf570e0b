import TreeWire.Command.Run

/-
  Checking a corpus: a directory with documents that should be
  accepted, and others that should be refused.

  Key definitions include:
    * `Expectation`
    * `CorpusResult`
    * `checkCorpus`
-/

namespace TreeWire

------------------------------------------------------------
-- Expectations
------------------------------------------------------------

/- What should become of a document. -/
inductive Expectation where
  | accept
  | refuse
  deriving DecidableEq, Repr, Inhabited

namespace Expectation

/- The directory with the documents of an expectation. -/
def directory : Expectation → String
  | .accept => "valid"
  | .refuse => "invalid"

/- Whether the result is as expected. -/
def isMet : Expectation → Except DecodeError Tree → Bool
  | .accept, .ok _ => true
  | .accept, .error _ => false
  | .refuse, .ok _ => false
  | .refuse, .error _ => true

/- The lines on a result. -/
def lines
    (path : String) :
    Expectation → Except DecodeError Tree → List String
  | .accept, .ok _ =>
      [passLine path]
  | .accept, .error e =>
      [failLine path, "    " ++ e.message]
  | .refuse, .ok _ =>
      [failLine path
        ++ " - expected a decode error but it succeeded"]
  | .refuse, .error e =>
      [passLine path ++ " (" ++ e.message ++ ")"]

end Expectation

------------------------------------------------------------
-- Results
------------------------------------------------------------

/- The lines so far, and how many documents did as expected. -/
structure CorpusResult where
  lines : List String
  passed : Nat
  failed : Nat
  deriving DecidableEq, Repr, Inhabited

namespace CorpusResult

/- Nothing is checked yet. -/
def empty : CorpusResult :=
  ⟨[], 0, 0⟩

/- Add the result of a document. -/
def add
    (r : CorpusResult)
    (expectation : Expectation)
    (path : String)
    (result : Except DecodeError Tree) : CorpusResult :=
  let lines := r.lines ++ expectation.lines path result
  if expectation.isMet result then
    ⟨lines, r.passed + 1, r.failed⟩
  else
    ⟨lines, r.passed, r.failed + 1⟩

/- The last line of a report. -/
def summaryLine
    (r : CorpusResult) : String :=
  toString r.passed ++ " passed, " ++ toString r.failed ++ " failed"

/- The report on a whole corpus. -/
def report
    (r : CorpusResult) : Report :=
  { exit := if r.failed = 0 then 0 else 1
    output := endLines (r.lines ++ [r.summaryLine])
    problem := "" }

end CorpusResult

------------------------------------------------------------
-- Checking
------------------------------------------------------------

section

variable {m : Type → Type} [Monad m] [FileAccess m]

/- Check files one after the other. -/
def checkFiles
    (expectation : Expectation) :
    List String →
    CorpusResult →
    m (CorpusResult × Except CommandError Unit)
  | [], r =>
      return (r, .ok ())
  | path :: paths, r => do
      let content ← FileAccess.read path
      match decodeOpened defaultMaxDepth content with
      | .error e =>
          return (r, .error (.unopened e))
      | .ok result =>
          checkFiles expectation paths
            (r.add expectation path result)

/- Check the documents of expectations. -/
def checkAll
    (root : String) :
    List Expectation →
    CorpusResult →
    m (CorpusResult × Except CommandError Unit)
  | [], r =>
      return (r, .ok ())
  | expectation :: rest, r => do
      let directory := Path.join root expectation.directory
      match ← Glob.expand (Path.join directory "*.json") with
      | .error e =>
          return (r, .error (.pattern e))
      | .ok paths =>
          match ← checkFiles expectation paths r with
          | (r, .error e) => return (r, .error e)
          | (r, .ok ()) => checkAll root rest r

/- Check a corpus. -/
def checkCorpus
    (root : String) : m Report := do
  match ← checkAll root [.accept, .refuse] .empty with
  | (r, .error e) => return .failure r.lines e
  | (r, .ok ()) => return r.report

end

end TreeWire
