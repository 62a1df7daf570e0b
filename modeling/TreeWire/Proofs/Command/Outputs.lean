import TreeWire.Command.Run
import TreeWire.Proofs.Files.Actions
import TreeWire.Proofs.Files.JoinedPaths
import TreeWire.Proofs.Number.Digits

/-
  Files for documents.

  The file for a document is named for its number, and different
  numbers have different names.  So writing one document leaves
  the files of the others alone, and when every file could be
  written, each holds its own document, and no other file is
  different.

  Key definitions include:
    * `documentName`
    * `IsDocument`
    * `FileTree.WroteDocuments`

  Main statements:
    * `documentName_injective`
    * `target_outputPath`
    * `FileTree.lines_of_reportOutcomes`
    * `FileTree.wroteDocuments`
-/

namespace TreeWire

------------------------------------------------------------
-- Names of Files
------------------------------------------------------------

/- The name of the file for a document. -/
def documentName
    (number : Nat) : String :=
  fourDigits number ++ ".json"

theorem toList_fourDigits
    (n : Nat) :
    (fourDigits n).toList =
      List.replicate (4 - (Nat.toDigits 10 n).length) '0'
        ++ Nat.toDigits 10 n := by
  rw [fourDigits, Nat.toString_eq_repr, Nat.repr,
    String.toList_ofList, String.toList_ofList]

/- The number is read from its digits with zeros in front. -/
theorem digitsValue_fourDigits
    (n : Nat) :
    digitsValue (fourDigits n).toList = n := by
  rw [toList_fourDigits, digitsValue_append,
    digitsValue_replicate_zero, digitsValue_toDigits, Nat.mul_zero,
    Nat.zero_add]

/- Different documents have different files. -/
theorem documentName_injective
    {n m : Nat}
    (h : documentName n = documentName m) :
    n = m := by
  have hDigits : fourDigits n = fourDigits m :=
    (String.append_left_inj ".json").mp h
  rw [← digitsValue_fourDigits n, hDigits, digitsValue_fourDigits]

example : documentName 12 = "0012.json" := by
  rfl

/- The name of a file is digits and an ending. -/
theorem isPlain_documentName
    (number : Nat) :
    Path.IsPlain (documentName number) := by
  have hChars :
      (documentName number).toList =
        (fourDigits number).toList ++ ".json".toList :=
    String.toList_append
  have hLong :
      ∀ name : String,
        name.toList.length < 5 → documentName number ≠ name := by
    intro name hShort hName
    rw [← hName, hChars, List.length_append] at hShort
    exact absurd hShort (Nat.not_lt.mpr (Nat.le_add_left 5 _))
  refine ⟨?_, ?_, hLong _ (by decide), hLong _ (by decide)⟩
  · rw [hChars]
    exact List.append_ne_nil_of_right_ne_nil _ (by decide)
  · rw [hChars, toList_fourDigits, List.mem_append, List.mem_append,
      not_or, not_or]
    refine ⟨⟨?_, ?_⟩, by decide⟩
    · intro hMem
      exact absurd (List.eq_of_mem_replicate hMem) (by decide)
    · intro hMem
      exact absurd (all_isDigit_toDigits number _ hMem) (by decide)

/- The file for a document is in the directory for the output. -/
theorem target_outputPath
    (directory : String)
    (number : Nat) :
    Path.target (outputPath directory number) =
      Path.target directory ++ [documentName number] :=
  Path.target_join directory (isPlain_documentName number)

theorem target_outputPath_injective
    {directory : String}
    {n m : Nat}
    (h : Path.target (outputPath directory n) =
      Path.target (outputPath directory m)) :
    n = m := by
  rw [target_outputPath, target_outputPath] at h
  exact documentName_injective
    (List.singleton_inj.mp (List.append_cancel_left h))

namespace FileTree

variable
  {root final : FileTree}

------------------------------------------------------------
-- Writing One File
------------------------------------------------------------

/- New directories before a file is written are no matter. -/
theorem Wrote.after
    {made : FileTree}
    {path : String}
    {bytes : List UInt8}
    (hMade : AddsDirectories root made)
    (h : Wrote made final path bytes) :
    Wrote root final path bytes where
  grows := hMade.grows.trans h.grows
  fileAt? names := by
    rw [h.fileAt?, hMade.fileAt?]
  locate := h.locate

theorem wrote_of_write
    {path contents : String}
    (h : (writeFile.write path contents : StateM FileTree _) root =
      (.ok (), final)) :
    Wrote root final path contents.toUTF8.toList := by
  have hWrite :
      (FileAccess.write path contents.toUTF8.toList :
          StateM FileTree _) root =
        update (fun root => root.writeAt path contents.toUTF8.toList)
          root :=
    rfl
  rw [writeFile.write, bind_apply, hWrite, update] at h
  cases hWritten : root.writeAt path contents.toUTF8.toList with
  | error e =>
      rw [hWritten] at h
      cases h
  | ok written =>
      rw [hWritten] at h
      cases h
      exact wrote_of_writeAt hWritten

/- A file that could be written is written. -/
theorem wrote_of_writeFile
    {path contents : String}
    (h : (writeFile path contents : StateM FileTree _) root =
      (.ok (), final)) :
    Wrote root final path contents.toUTF8.toList := by
  rw [writeFile] at h
  cases hParent : Path.parent? path with
  | none =>
      rw [hParent] at h
      exact wrote_of_write h
  | some parent =>
      rw [hParent] at h
      dsimp only at h
      rw [bind_apply] at h
      have hMade := addsDirectories_createDirectories parent root
      cases hResult :
          ((createDirectories parent : StateM FileTree _) root).1 with
      | error e =>
          rw [hResult] at h
          cases h
      | ok done =>
          rw [hResult] at h
          exact (wrote_of_write h).after hMade

------------------------------------------------------------
-- Writing All Files
------------------------------------------------------------

/- A document of outcomes, under its number. -/
def IsDocument
    (outcomes : List Outcome)
    (number : Nat)
    (tree : Tree) : Prop :=
  (outcomes[number]?).map Outcome.result = some (.ok tree)

/-
  What writing outcomes does, numbered from a number on: the path
  for each document leads to the document in indented text, and
  no other file is different.
-/
structure WroteDocuments
    (root final : FileTree)
    (directory : String)
    (first : Nat)
    (outcomes : List Outcome) : Prop where
  grows :
    Grows root final
  written (number : Nat) (tree : Tree) :
    IsDocument outcomes number tree →
      final.locate (outputPath directory (first + number)) =
        .ok (.taken
          (Path.target (outputPath directory (first + number)))
          (.file (projectText tree).toUTF8.toList))
  kept (names : List String) :
    (∀ number tree,
      IsDocument outcomes number tree →
        names ≠
          Path.target (outputPath directory (first + number))) →
      final.fileAt? names = root.fileAt? names

theorem isDocument_zero_iff
    {outcome : Outcome}
    {outcomes : List Outcome}
    {tree : Tree} :
    IsDocument (outcome :: outcomes) 0 tree ↔
      outcome.result = .ok tree := by
  simp [IsDocument]

theorem isDocument_succ_iff
    {outcome : Outcome}
    {outcomes : List Outcome}
    {number : Nat}
    {tree : Tree} :
    IsDocument (outcome :: outcomes) (number + 1) tree ↔
      IsDocument outcomes number tree := by
  rw [IsDocument, IsDocument, List.getElem?_cons_succ]

section

variable
  {made : FileTree}
  {directory : String}
  {first : Nat}
  {outcome : Outcome}
  {outcomes : List Outcome}

/- A document that failed has a number and no file. -/
theorem WroteDocuments.cons_error
    {e : DocumentError}
    (hOutcome : outcome.result = .error e)
    (hRest :
      WroteDocuments root final directory (first + 1) outcomes) :
    WroteDocuments root final directory first
      (outcome :: outcomes) where
  grows := hRest.grows
  written number tree hDocument := by
    cases number with
    | zero =>
        rw [isDocument_zero_iff, hOutcome] at hDocument
        cases hDocument
    | succ number =>
        rw [← Nat.succ_add_eq_add_succ]
        exact hRest.written number tree
          (isDocument_succ_iff.mp hDocument)
  kept names hNames := by
    apply hRest.kept names
    intro number tree hDocument
    rw [Nat.succ_add_eq_add_succ]
    exact hNames (number + 1) tree (isDocument_succ_iff.mpr hDocument)

/- Files for later documents leave the file for the first alone. -/
theorem WroteDocuments.cons_ok
    {tree : Tree}
    (hOutcome : outcome.result = .ok tree)
    (hFirst :
      Wrote root made (outputPath directory first)
        (projectText tree).toUTF8.toList)
    (hRest :
      WroteDocuments made final directory (first + 1) outcomes) :
    WroteDocuments root final directory first
      (outcome :: outcomes) where
  grows := hFirst.grows.trans hRest.grows
  written number other hDocument := by
    cases number with
    | zero =>
        rw [isDocument_zero_iff, hOutcome] at hDocument
        cases hDocument
        rw [Nat.add_zero]
        have hKept :=
          hRest.kept (Path.target (outputPath directory first))
            fun number tree _ hSame => by
              have hNumber := target_outputPath_injective hSame
              omega
        rw [hFirst.fileAt?, if_pos rfl] at hKept
        exact hRest.grows.locate_file hFirst.locate hKept
    | succ number =>
        rw [← Nat.succ_add_eq_add_succ]
        exact hRest.written number other
          (isDocument_succ_iff.mp hDocument)
  kept names hNames := by
    have hDifferent :
        names ≠ Path.target (outputPath directory first) :=
      hNames 0 tree (isDocument_zero_iff.mpr hOutcome)
    have hLater :=
      hRest.kept names fun number other hDocument => by
        rw [Nat.succ_add_eq_add_succ]
        exact hNames (number + 1) other
          (isDocument_succ_iff.mpr hDocument)
    rw [hLater, hFirst.fileAt?, if_neg hDifferent]

/- What the first outcome and the others come to. -/
theorem reportOutcomes_cons
    {out : Option String}
    {lines : List String}
    (h :
      (reportOutcomes out first (outcome :: outcomes) :
          StateM FileTree _) root =
        ((lines, .ok ()), final)) :
    ∃ made rest,
      (writeOutcome out first outcome : StateM FileTree _) root =
          (.ok (), made) ∧
        (reportOutcomes out (first + 1) outcomes :
            StateM FileTree _) made =
          ((rest, .ok ()), final) ∧
          lines = outcome.lines ++ rest := by
  rw [reportOutcomes, bind_apply] at h
  rcases hWrite :
      (writeOutcome out first outcome : StateM FileTree _) root with
    ⟨result, made⟩
  rw [hWrite] at h
  cases result with
  | error e => cases h
  | ok done =>
      rcases hReport :
          (reportOutcomes out (first + 1) outcomes :
            StateM FileTree _) made with
        ⟨⟨rest, result⟩, last⟩
      dsimp only at h
      rw [bind_apply, hReport] at h
      cases h
      exact ⟨made, rest, rfl, hReport, rfl⟩

theorem reportOutcomes_cons_ok
    {out : Option String}
    (hWrite :
      (writeOutcome out first outcome : StateM FileTree _) root =
        (.ok (), made))
    (hRest :
      ((reportOutcomes out (first + 1) outcomes :
          StateM FileTree _) made).1.2 = .ok ()) :
    ((reportOutcomes out first (outcome :: outcomes) :
        StateM FileTree _) root).1.2 = .ok () := by
  rw [reportOutcomes, bind_apply, hWrite]
  exact hRest

/- Every document has its lines, in order. -/
theorem lines_of_reportOutcomes
    {out : Option String}
    {lines : List String}
    (h :
      (reportOutcomes out first outcomes : StateM FileTree _) root =
        ((lines, .ok ()), final)) :
    lines = outcomes.flatMap Outcome.lines := by
  induction outcomes generalizing first root lines with
  | nil =>
      cases h
      rfl
  | cons outcome outcomes ih =>
      rcases reportOutcomes_cons h with
        ⟨made, rest, _, hReport, rfl⟩
      rw [ih hReport, List.flatMap_cons]

theorem writeOutcome_of_error
    {e : DocumentError}
    (h : outcome.result = .error e) :
    (writeOutcome (some directory) first outcome :
        StateM FileTree _) =
      pure (.ok ()) := by
  unfold writeOutcome
  rw [h]

theorem writeOutcome_of_ok
    {tree : Tree}
    (h : outcome.result = .ok tree) :
    (writeOutcome (some directory) first outcome :
        StateM FileTree _) =
      writeFile (outputPath directory first) (projectText tree) := by
  unfold writeOutcome
  rw [h]

/- A document that could be written is written. -/
theorem writeOutcome_eq_ok
    (h :
      (writeOutcome (some directory) first outcome :
          StateM FileTree _) root =
        (.ok (), made)) :
    (∃ e, outcome.result = .error e ∧ made = root) ∨
      ∃ tree,
        outcome.result = .ok tree ∧
          Wrote root made (outputPath directory first)
            (projectText tree).toUTF8.toList := by
  cases hOutcome : outcome.result with
  | error e =>
      rw [writeOutcome_of_error hOutcome] at h
      cases h
      exact .inl ⟨e, rfl, rfl⟩
  | ok tree =>
      rw [writeOutcome_of_ok hOutcome] at h
      exact .inr ⟨tree, rfl, wrote_of_writeFile h⟩

end

/-
  Outcomes whose files could all be written are written.  The
  induction is on the outcomes.
-/
theorem wroteDocuments
    {directory : String}
    {first : Nat}
    {outcomes : List Outcome}
    {lines : List String}
    (h :
      (reportOutcomes (some directory) first outcomes :
          StateM FileTree _) root =
        ((lines, .ok ()), final)) :
    WroteDocuments root final directory first outcomes := by
  induction outcomes generalizing first root lines with
  | nil =>
      cases h
      refine ⟨.refl _, ?_, ?_⟩
      · intro number tree hDocument
        cases hDocument
      · intro names _
        rfl
  | cons outcome outcomes ih =>
      rcases reportOutcomes_cons h with
        ⟨made, rest, hWrite, hReport, _⟩
      have hRest := ih hReport
      rcases writeOutcome_eq_ok hWrite with
        ⟨e, hOutcome, rfl⟩ | ⟨tree, hOutcome, hFirst⟩
      · exact hRest.cons_error hOutcome
      · exact hRest.cons_ok hOutcome hFirst

variable
  {directory : String}
  {first : Nat}
  {outcomes : List Outcome}

/- Where a document is found afterwards. -/
theorem WroteDocuments.found
    {number : Nat}
    {tree : Tree}
    (h : WroteDocuments root final directory first outcomes)
    (hDocument : IsDocument outcomes number tree) :
    final.fileAt?
        (Path.target directory ++ [documentName (first + number)]) =
        some (projectText tree).toUTF8.toList ∧
      final.readAt (outputPath directory (first + number)) =
        .ok (projectText tree).toUTF8.toList := by
  have hLocate := h.written number tree hDocument
  have hStands := (locate_eq_ok hLocate).1
  rw [target_outputPath, Place.Stands] at hStands
  rw [fileAt?_eq_some_iff, look_eq_file_iff, readAt, hLocate]
  exact ⟨hStands, rfl⟩

end FileTree

end TreeWire
