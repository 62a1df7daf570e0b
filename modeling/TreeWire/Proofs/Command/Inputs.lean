import Mathlib.Data.List.Forall2
import TreeWire.Command.Documents
import TreeWire.Proofs.Files.Actions

/-
  The documents of inputs.

  Inputs stand for files when each of them does, and then for the
  files of the first one, of the second one, and so on.  The
  documents of the files are read from the tree that the program
  starts from, and reading leaves the tree as it is.

  Key definitions include:
    * `FileTree.inputsFiles`
    * `FileTree.documents`

  Main statements:
    * `FileTree.inputsFiles_eq_ok_iff`
    * `FileTree.decodeInputs_apply`
-/

namespace TreeWire

namespace FileTree

variable
  {root : FileTree}

------------------------------------------------------------
-- Files of Inputs
------------------------------------------------------------

theorem readsOnly_resolveInput
    (input : String) :
    ReadsOnly (resolveInput input : StateM FileTree _) := by
  rw [resolveInput]
  split
  · refine (readsOnly_expand input).bind fun result => ?_
    split
    · exact readsOnly_pure _
    · exact readsOnly_pure _
    · exact readsOnly_pure _
  · exact readsOnly_pure _

theorem readsOnly_resolveInputs
    (inputs : List String) :
    ReadsOnly (resolveInputs inputs : StateM FileTree _) := by
  induction inputs with
  | nil => exact readsOnly_pure _
  | cons input inputs ih =>
      refine (readsOnly_resolveInput input).bind fun result => ?_
      split
      · exact readsOnly_pure _
      · exact ih.bind fun rest => readsOnly_pure _

/- The files that an input stands for in a tree. -/
def inputFiles
    (root : FileTree)
    (input : String) : Except InputError (List String) :=
  ((resolveInput input : StateM FileTree _) root).1

/- The files that inputs stand for in a tree. -/
def inputsFiles
    (root : FileTree)
    (inputs : List String) : Except InputError (List String) :=
  ((resolveInputs inputs : StateM FileTree _) root).1

theorem inputsFiles_cons
    (input : String)
    (inputs : List String) :
    root.inputsFiles (input :: inputs) =
      (root.inputFiles input).bind fun paths =>
        (root.inputsFiles inputs).map (paths ++ ·) := by
  rw [inputsFiles, resolveInputs, bind_apply,
    readsOnly_resolveInput input root, ← inputFiles]
  cases root.inputFiles input with
  | error e => rfl
  | ok paths => rfl

/-
  Inputs stand for files when each of them does, and then for
  those of the first one, those of the second one, and so on.
-/
theorem inputsFiles_eq_ok_iff
    {inputs paths : List String} :
    root.inputsFiles inputs = .ok paths ↔
      ∃ groups,
        List.Forall₂ (fun input group =>
            root.inputFiles input = .ok group)
          inputs groups ∧
          paths = groups.flatten := by
  induction inputs generalizing paths with
  | nil =>
      constructor
      · intro h
        cases h
        exact ⟨[], .nil, rfl⟩
      · rintro ⟨groups, hGroups, rfl⟩
        cases hGroups
        rfl
  | cons input inputs ih =>
      rw [inputsFiles_cons]
      constructor
      · intro h
        cases hFirst : root.inputFiles input with
        | error e =>
            rw [hFirst] at h
            cases h
        | ok first =>
            cases hRest : root.inputsFiles inputs with
            | error e =>
                rw [hFirst, hRest] at h
                cases h
            | ok rest =>
                rw [hFirst, hRest] at h
                cases h
                rcases ih.mp hRest with ⟨groups, hGroups, rfl⟩
                exact ⟨first :: groups, .cons hFirst hGroups, rfl⟩
      · rintro ⟨groups, hGroups, rfl⟩
        cases hGroups with
        | cons hFirst hGroups =>
            rw [hFirst, Except.bind,
              ih.mpr ⟨_, hGroups, rfl⟩]
            rfl

------------------------------------------------------------
-- Documents of Files
------------------------------------------------------------

/- The documents of files in a tree, in the order of the files. -/
def documents
    (root : FileTree)
    (settings : DecodeSettings)
    (paths : List String) : List Outcome :=
  paths.flatMap fun path =>
    settings.framing.outcomes settings.maxDepth path
      (root.readAt path)

theorem decodeFiles_apply
    (settings : DecodeSettings)
    (paths : List String)
    (root : FileTree) :
    (decodeFiles settings paths : StateM FileTree _) root =
      (root.documents settings paths, root) := by
  induction paths with
  | nil => rfl
  | cons path paths ih =>
      rw [decodeFiles, bind_apply, bind_apply]
      have hRead :
          (FileAccess.read path : StateM FileTree _) root =
            (root.readAt path, root) :=
        rfl
      rw [hRead, ih, documents, documents, List.flatMap_cons]
      rfl

/- The documents of inputs are those of the tree at the start. -/
theorem decodeInputs_apply
    {settings : DecodeSettings}
    {paths : List String}
    (h : root.inputsFiles settings.inputs = .ok paths) :
    (decodeInputs settings : StateM FileTree _) root =
      (.ok (root.documents settings paths), root) := by
  rw [inputsFiles] at h
  rw [decodeInputs, bind_apply, readsOnly_resolveInputs, h]
  dsimp only
  rw [bind_apply, decodeFiles_apply]
  rfl

end FileTree

end TreeWire
