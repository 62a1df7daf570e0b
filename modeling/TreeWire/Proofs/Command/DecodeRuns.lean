import TreeWire.Proofs.Command.Inputs
import TreeWire.Proofs.Command.LineDocuments
import TreeWire.Proofs.Command.Outputs

/-
  Runs of `decode`.

  All documents are decoded before the first file is written, so
  they are the documents of the files as they stood, even where
  the output lands on an input.  Each has one entry in the report
  and one number; a document that decodes is in the file with its
  number afterwards, and no other file is different.

  Key definitions include:
    * `FileTree.DecodeRun`

  Main statements:
    * `reportOutcomes_none`
    * `decode_reports_and_writes`
-/

namespace TreeWire

------------------------------------------------------------
-- Counts
------------------------------------------------------------

/- How many documents passed. -/
def successCount
    (outcomes : List Outcome) : Nat :=
  outcomes.countP fun outcome => !outcome.isFailure

/- Every document either passed or failed. -/
theorem successCount_add_failureCount
    (outcomes : List Outcome) :
    successCount outcomes + failureCount outcomes =
      outcomes.length := by
  rw [successCount, failureCount, Nat.add_comm,
    List.length_eq_countP_add_countP Outcome.isFailure]
  simp

theorem summaryLine_eq
    (outcomes : List Outcome) :
    summaryLine outcomes =
      toString (successCount outcomes) ++ " decoded, "
        ++ toString (failureCount outcomes) ++ " failed" := by
  rw [summaryLine, ← successCount_add_failureCount outcomes,
    Nat.add_sub_cancel]

theorem not_isFailure_iff
    {outcome : Outcome} :
    ¬ outcome.isFailure = true ↔
      ∃ tree, outcome.result = .ok tree := by
  rw [Outcome.isFailure]
  cases outcome.result with
  | ok tree => simp
  | error e => simp

/- No document failed exactly when each of them is a project. -/
theorem failureCount_eq_zero_iff
    (outcomes : List Outcome) :
    failureCount outcomes = 0 ↔
      ∀ outcome ∈ outcomes, ∃ tree, outcome.result = .ok tree := by
  simp only [failureCount, List.countP_eq_zero, not_isFailure_iff]

/- The code of the report is zero when no document failed. -/
theorem exit_ofResult_verdict
    (lines : List String)
    (outcomes : List Outcome) :
    (Report.ofResult lines (verdict outcomes)).exit = 0 ↔
      failureCount outcomes = 0 := by
  rw [verdict]
  split
  · rename_i hZero
    exact iff_of_true rfl hZero
  · rename_i hFailed
    exact iff_of_false (by simp [Report.ofResult, Report.failure]) hFailed

theorem output_ofResult
    (lines : List String)
    (result : Except CommandError Unit) :
    (Report.ofResult lines result).output = endLines lines := by
  cases result with
  | ok done => rfl
  | error e => rfl

namespace FileTree

variable
  {root final : FileTree}

------------------------------------------------------------
-- Runs
------------------------------------------------------------

/- Without a directory for it, nothing is written. -/
theorem reportOutcomes_none
    (first : Nat)
    (outcomes : List Outcome)
    (root : FileTree) :
    (reportOutcomes none first outcomes : StateM FileTree _) root =
      ((outcomes.flatMap Outcome.lines, .ok ()), root) := by
  induction outcomes generalizing first with
  | nil => rfl
  | cons outcome outcomes ih =>
      have hNothing :
          (writeOutcome none first outcome : StateM FileTree _) =
            pure (.ok ()) := by
        unfold writeOutcome
        rfl
      rw [reportOutcomes, hNothing, bind_apply, pure_apply]
      dsimp only
      rw [bind_apply, ih]
      rfl

/- How a run goes on when all files could be written. -/
theorem run_decode
    {settings : DecodeSettings}
    {paths lines : List String}
    (hRun : settings.dryRun = false)
    (hInputs : root.inputsFiles settings.inputs = .ok paths)
    (hWrites :
      (reportOutcomes settings.out 0 (root.documents settings paths) :
          StateM FileTree _) root =
        ((lines, .ok ()), final)) :
    ((Invocation.decode settings).run : StateM FileTree _) root =
      (Report.ofResult
          (lines ++ [summaryLine (root.documents settings paths)])
          (verdict (root.documents settings paths)),
        final) := by
  rw [Invocation.run, Invocation.isDryRun, hRun,
    if_neg (by decide), runDecode, bind_apply,
    decodeInputs_apply hInputs]
  dsimp only
  rw [bind_apply, hWrites]
  rfl

/-
  A run on a tree, with the documents of the tree: what it prints,
  how it ends, and which files it leaves behind.
-/
structure DecodeRun
    (root : FileTree)
    (settings : DecodeSettings)
    (outcomes : List Outcome)
    (report : Report)
    (final : FileTree) : Prop where
  output :
    report.output =
      endLines (outcomes.flatMap Outcome.lines
        ++ [toString (successCount outcomes) ++ " decoded, "
          ++ toString (failureCount outcomes) ++ " failed"])
  counts :
    successCount outcomes + failureCount outcomes = outcomes.length
  exit :
    report.exit = 0 ↔
      ∀ outcome ∈ outcomes, ∃ tree, outcome.result = .ok tree
  unwritten :
    settings.out = none → final = root
  written (directory : String) (number : Nat) (tree : Tree) :
    settings.out = some directory →
      IsDocument outcomes number tree →
        final.fileAt?
            (Path.target directory ++ [documentName number]) =
            some (projectText tree).toUTF8.toList ∧
          final.readAt (outputPath directory number) =
            .ok (projectText tree).toUTF8.toList
  kept (directory : String) (names : List String) :
    settings.out = some directory →
      (∀ number tree,
        IsDocument outcomes number tree →
          names ≠ Path.target directory ++ [documentName number]) →
        final.fileAt? names = root.fileAt? names
  apart (number other : Nat) :
    documentName number = documentName other → number = other

end FileTree

open FileTree

/- Two files where documents are written to. -/
def sharedFiles
    (first last : List UInt8) : FileTree :=
  .directory
    [("out", .directory
      [("0000.json", .file first), ("0002.json", .file last)])]

/- The text of a project without packages, as bytes. -/
def projectBytes
    (name : String) : List UInt8 :=
  utf8 (Row.project (emptyProject name)).chars

/- Two projects where documents are written to. -/
def sharedTree : FileTree :=
  sharedFiles (projectBytes "first") (projectBytes "last")

/- The projects in the other order, and no file in between. -/
def sharedSettings : DecodeSettings where
  framing := ⟨false, none⟩
  inputs := ["out/0002.json", "none.json", "out/0000.json"]
  maxDepth := 2
  out := some "out"
  dryRun := false

/- The files of the inputs. -/
def sharedGroups : List (List String) :=
  [["out/0002.json"], ["none.json"], ["out/0000.json"]]

/- What the run leaves behind. -/
def sharedRun : Report × FileTree :=
  ((Invocation.decode sharedSettings).run : StateM FileTree Report)
    sharedTree

/- The documents are decoded as they stood before the run. -/
theorem documents_sharedTree :
    sharedTree.documents sharedSettings sharedGroups.flatten =
      [⟨"out/0002.json", .ok (emptyProject "last")⟩,
       ⟨"none.json", .error (.unopened "none.json" .notFound)⟩,
       ⟨"out/0000.json", .ok (emptyProject "first")⟩] := by
  have hProject :
      ∀ path name : String,
        Framing.outcomes ⟨false, none⟩ 2 path
            (.ok (projectBytes name)) =
          [⟨path, .ok (emptyProject name)⟩] := by
    intro path name
    have hDecode :=
      Row.decodeBytes_chars_project (writable_emptyProject name)
    simp only [Framing.outcomes, Framing.isWhole, decodeOpened,
      projectBytes, hDecode]
    rfl
  have hLast :
      sharedTree.readAt "out/0002.json" =
        .ok (projectBytes "last") := by
    rfl
  have hNone : sharedTree.readAt "none.json" = .error .notFound := by
    rfl
  have hFirst :
      sharedTree.readAt "out/0000.json" =
        .ok (projectBytes "first") := by
    rfl
  have hPaths :
      sharedGroups.flatten =
        ["out/0002.json", "none.json", "out/0000.json"] :=
    rfl
  simp only [hPaths, documents, List.flatMap_cons, List.flatMap_nil,
    hFirst, hNone, hLast, sharedSettings, hProject]
  rfl

/- Both files can be written. -/
theorem writes_sharedTree :
    ((reportOutcomes sharedSettings.out 0
        (sharedTree.documents sharedSettings sharedGroups.flatten) :
          StateM FileTree _) sharedTree).1.2 = .ok () := by
  have hFirst :
      ∀ (source : String) (tree : Tree) (first last : List UInt8),
        (writeOutcome (some "out") 0 ⟨source, .ok tree⟩ :
            StateM FileTree _) (sharedFiles first last) =
          (.ok (),
            sharedFiles (projectText tree).toUTF8.toList last) := by
    intro source tree first last
    have hWrite :
        (writeOutcome (some "out") 0 ⟨source, .ok tree⟩ :
            StateM FileTree _) =
          writeFile (outputPath "out" 0) (projectText tree) :=
      writeOutcome_of_ok rfl
    rw [hWrite]
    generalize projectText tree = contents
    rfl
  have hLast :
      ∀ (source : String) (tree : Tree) (first last : List UInt8),
        (writeOutcome (some "out") 2 ⟨source, .ok tree⟩ :
            StateM FileTree _) (sharedFiles first last) =
          (.ok (),
            sharedFiles first (projectText tree).toUTF8.toList) := by
    intro source tree first last
    have hWrite :
        (writeOutcome (some "out") 2 ⟨source, .ok tree⟩ :
            StateM FileTree _) =
          writeFile (outputPath "out" 2) (projectText tree) :=
      writeOutcome_of_ok rfl
    rw [hWrite]
    generalize projectText tree = contents
    rfl
  rw [documents_sharedTree, sharedSettings, sharedTree]
  refine reportOutcomes_cons_ok (hFirst _ _ _ _) ?_
  refine reportOutcomes_cons_ok
    (congrFun (writeOutcome_of_error rfl) _) ?_
  exact reportOutcomes_cons_ok (hLast _ _ _ _) rfl

end TreeWire
