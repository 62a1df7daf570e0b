import TreeWire.Glob.Expansion
import TreeWire.Proofs.Files.Growth

/-
  What programs do to a file tree.

  Looking for files leaves the tree as it is, so the paths that a
  pattern stands for are those of the tree that the program
  starts from.  Making the directories of a path only adds
  directories.

  Key definitions include:
    * `FileTree.ReadsOnly`

  Main statements:
    * `FileTree.readsOnly_expand`
    * `FileTree.addsDirectories_createDirectories`
-/

namespace TreeWire

namespace FileTree

variable
  {α β : Type}
  {root : FileTree}

------------------------------------------------------------
-- Running Actions
------------------------------------------------------------

/- A sequence runs its second part on what the first leaves. -/
theorem bind_apply
    (x : StateM FileTree α)
    (f : α → StateM FileTree β)
    (root : FileTree) :
    (x >>= f) root = f (x root).1 (x root).2 :=
  rfl

theorem pure_apply
    (a : α)
    (root : FileTree) :
    (pure a : StateM FileTree α) root = (a, root) :=
  rfl

/- An action leaves every tree as it is. -/
def ReadsOnly
    (x : StateM FileTree α) : Prop :=
  ∀ root, (x root).2 = root

theorem readsOnly_pure
    (a : α) :
    ReadsOnly (pure a) := fun _ =>
  rfl

theorem ReadsOnly.bind
    {x : StateM FileTree α}
    {f : α → StateM FileTree β}
    (hFirst : ReadsOnly x)
    (hSecond : ∀ a, ReadsOnly (f a)) :
    ReadsOnly (x >>= f) := by
  intro root
  rw [bind_apply, hSecond, hFirst]

theorem ReadsOnly.mapM
    {f : α → StateM FileTree β}
    (h : ∀ a, ReadsOnly (f a))
    (as : List α) :
    ReadsOnly (as.mapM f) := by
  induction as with
  | nil =>
      rw [List.mapM_nil]
      exact readsOnly_pure []
  | cons a as ih =>
      rw [List.mapM_cons]
      exact (h a).bind fun b => ih.bind fun bs =>
        readsOnly_pure (b :: bs)

theorem readsOnly_kind?
    (path : String) :
    ReadsOnly (FileAccess.kind? path : StateM FileTree _) := fun _ =>
  rfl

theorem readsOnly_names
    (path : String) :
    ReadsOnly (FileAccess.names path : StateM FileTree _) := fun _ =>
  rfl

theorem readsOnly_isDirectory
    (path : String) :
    ReadsOnly (isDirectory path : StateM FileTree _) := fun _ =>
  rfl

------------------------------------------------------------
-- Looking for Files
------------------------------------------------------------

open Glob

theorem readsOnly_keep
    (onlyDirectories : Bool)
    (path : String) :
    ReadsOnly (keep onlyDirectories path : StateM FileTree _) := by
  refine (readsOnly_isDirectory path).bind fun directory => ?_
  split
  · exact readsOnly_pure _
  · exact readsOnly_pure _

section

variable
  {descend : List GlobPattern → String → StateM FileTree (List String)}

theorem readsOnly_arrive
    (onlyDirectories : Bool)
    (h : ∀ rest path, ReadsOnly (descend rest path))
    (rest : List GlobPattern)
    (path : String) :
    ReadsOnly (arrive onlyDirectories descend rest path) := by
  rw [arrive]
  split
  · exact readsOnly_keep onlyDirectories path
  · exact h rest path

theorem readsOnly_visit
    (onlyDirectories : Bool)
    (h : ∀ rest path, ReadsOnly (descend rest path))
    (p : GlobPattern)
    (rest : List GlobPattern)
    (path name : String) :
    ReadsOnly
      (visit onlyDirectories descend p rest path name) := by
  have hArrive := readsOnly_arrive onlyDirectories h
  have hNext :
      ∀ (deeper : List String) (next : GlobPattern)
        (after : List GlobPattern),
        ReadsOnly (
          if next.covers name then
            arrive onlyDirectories descend after path >>=
              fun found => pure (found ++ deeper)
          else
            pure [] >>= fun found => pure (found ++ deeper)) := by
    intro deeper next after
    split
    · exact (hArrive after path).bind fun found => readsOnly_pure _
    · exact (readsOnly_pure []).bind fun found => readsOnly_pure _
  rw [visit]
  split
  · refine (readsOnly_isDirectory path).bind fun directory => ?_
    cases directory with
    | true =>
        refine (h _ _).bind fun deeper => ?_
        split
        · exact readsOnly_pure _
        · exact hNext deeper _ _
    | false =>
        refine (readsOnly_pure []).bind fun deeper => ?_
        split
        · exact readsOnly_pure _
        · exact hNext deeper _ _
  · split
    · exact hArrive rest path
    · exact readsOnly_pure []

end

/- Descending reads only.  The induction is on the depth. -/
theorem readsOnly_descend
    (onlyDirectories : Bool)
    (depth : Nat)
    (ps : List GlobPattern)
    (path : String) :
    ReadsOnly
      (descend onlyDirectories depth ps path :
        StateM FileTree _) := by
  induction depth generalizing ps path with
  | zero => exact readsOnly_pure []
  | succ depth ih =>
      cases ps with
      | nil => exact readsOnly_pure []
      | cons p rest =>
          have hArrive := readsOnly_arrive onlyDirectories ih
          have hNext :
              ∀ found : Bool,
                ReadsOnly (
                  if found then
                    arrive onlyDirectories
                      (descend onlyDirectories depth) rest
                      (below path p.text)
                  else
                    pure []) := by
            intro found
            split
            · exact hArrive rest _
            · exact readsOnly_pure []
          rw [descend]
          refine (readsOnly_isDirectory path).bind fun directory => ?_
          split
          · split
            · exact (readsOnly_pure directory).bind hNext
            · exact (readsOnly_kind? _).bind fun kind =>
                (readsOnly_pure kind.isSome).bind hNext
          · split
            · have hVisit := readsOnly_visit onlyDirectories ih p rest
              refine (ReadsOnly.mapM (fun name => hArrive rest _)
                _).bind fun special => ?_
              refine (readsOnly_names path).bind fun names => ?_
              exact (ReadsOnly.mapM (fun name => hVisit _ name)
                _).bind fun found => readsOnly_pure _
            · exact readsOnly_pure []

/- The paths of a pattern are found without changing anything. -/
theorem readsOnly_expand
    (text : String) :
    ReadsOnly (expand text : StateM FileTree _) := by
  rw [expand]
  split
  · exact readsOnly_pure _
  · split
    · exact readsOnly_pure _
    · exact (readsOnly_descend _ _ _ _).bind fun paths =>
        readsOnly_pure _

------------------------------------------------------------
-- Making Directories
------------------------------------------------------------

theorem addsDirectories_ensureDirectory
    (path : String)
    (root : FileTree) :
    AddsDirectories root
      ((ensureDirectory path : StateM FileTree _) root).2 := by
  rw [ensureDirectory, bind_apply]
  have hMake :
      (FileAccess.makeDirectory path : StateM FileTree _) root =
        update (fun root => root.makeAt path) root :=
    rfl
  rw [hMake, update]
  cases hMade : root.makeAt path with
  | ok made => exact addsDirectories_of_makeAt hMade
  | error e =>
      dsimp only
      rw [bind_apply, readsOnly_isDirectory]
      split
      · exact .refl root
      · exact .refl root

/- Making directories only adds some, whatever comes of it. -/
theorem addsDirectories_createWithin
    (count : Nat)
    (path : String)
    (root : FileTree) :
    AddsDirectories root
      ((createWithin count path : StateM FileTree _) root).2 := by
  induction count generalizing path root with
  | zero => exact addsDirectories_ensureDirectory path root
  | succ count ih =>
      rw [createWithin]
      split
      · exact .refl root
      · have hFirst := addsDirectories_ensureDirectory path root
        rw [bind_apply]
        rcases hEnsure :
            (ensureDirectory path : StateM FileTree _) root with
          ⟨result, made⟩
        rw [hEnsure] at hFirst
        cases result with
        | ok done => exact hFirst
        | error e =>
            cases e with
            | notFound =>
                cases Path.parent? path with
                | none => exact hFirst
                | some parent =>
                    refine hFirst.trans ((ih parent made).trans ?_)
                    dsimp only
                    rw [bind_apply]
                    rcases (createWithin count parent :
                        StateM FileTree _) made with ⟨result, deeper⟩
                    cases result with
                    | error e => exact .refl deeper
                    | ok done =>
                        exact addsDirectories_ensureDirectory path deeper
            | _ => exact hFirst

theorem addsDirectories_createDirectories
    (path : String)
    (root : FileTree) :
    AddsDirectories root
      ((createDirectories path : StateM FileTree _) root).2 :=
  addsDirectories_createWithin _ path root

end FileTree

end TreeWire
