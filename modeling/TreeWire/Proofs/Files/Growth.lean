import TreeWire.Proofs.Files.Places

/-
  Trees that grow.

  A tree grows when every file stays a file and every directory a
  directory; others may come.  A path that leads somewhere still
  leads there then.  Writing a file and making a directory let a
  tree grow: the one changes what a single path leads to, the
  other adds a directory where nothing was.

  Key definitions include:
    * `FileTree.Grows`
    * `FileTree.Wrote`
    * `FileTree.AddsDirectories`

  Main statements:
    * `FileTree.Grows.locate`
    * `FileTree.wrote_of_writeAt`
    * `FileTree.addsDirectories_of_makeAt`
-/

namespace TreeWire

namespace FileTree

variable
  {root grown : FileTree}

------------------------------------------------------------
-- Growing Trees
------------------------------------------------------------

/- Whether an entry is a file or a directory. -/
def Entry.kind : Entry → EntryKind
  | .file _ => .file
  | .directory => .directory

/- Entries stay what they are, and others may come. -/
def Grows
    (root grown : FileTree) : Prop :=
  ∀ names kind,
    (root.look names).map Entry.kind = some kind →
      (grown.look names).map Entry.kind = some kind

theorem Grows.refl
    (root : FileTree) :
    Grows root root := fun _ _ h =>
  h

theorem Grows.trans
    {later : FileTree}
    (h : Grows root grown)
    (hLater : Grows grown later) :
    Grows root later := fun names kind hKind =>
  hLater names kind (h names kind hKind)

/- A directory stays a directory. -/
theorem Grows.directory
    {names : List String}
    {entries : List (String × FileTree)}
    (h : Grows root grown)
    (hDirectory : root.at? names = some (.directory entries)) :
    ∃ entries', grown.at? names = some (.directory entries') := by
  have hKind := h names .directory (by rw [look, hDirectory]; rfl)
  rw [look, Option.map_map, Option.map_eq_some_iff] at hKind
  rcases hKind with ⟨tree, hTree, hKind⟩
  cases tree with
  | file bytes => cases hKind
  | directory entries' => exact ⟨entries', hTree⟩

/- A name in a directory stays in the directory. -/
theorem Grows.isSome_lookup
    {names : List String}
    {name : String}
    {entries entries' : List (String × FileTree)}
    (h : Grows root grown)
    (hDirectory : root.at? names = some (.directory entries))
    (hDirectory' : grown.at? names = some (.directory entries'))
    (hName : (entries.lookup name).isSome = true) :
    (entries'.lookup name).isSome = true := by
  rcases Option.isSome_iff_exists.mp hName with ⟨old, hOld⟩
  have hKind := h (names ++ [name]) old.entry.kind (by
    rw [look, at?_concat name hDirectory, hOld]
    rfl)
  rw [look, at?_concat name hDirectory', Option.map_map,
    Option.map_eq_some_iff] at hKind
  rcases hKind with ⟨tree, hTree, _⟩
  rw [hTree]
  rfl

theorem follow_dot
    {place : List String}
    {entries : List (String × FileTree)}
    (names : List String)
    (h : root.at? place.reverse = some (.directory entries)) :
    root.follow place ("." :: names) = root.follow place names := by
  rw [FileTree.follow.eq_def]
  simp [h]

theorem follow_up
    {first : String}
    {place : List String}
    {entries : List (String × FileTree)}
    (names : List String)
    (h : root.at? (first :: place).reverse =
      some (.directory entries)) :
    root.follow (first :: place) (".." :: names) =
      root.follow place names := by
  rw [FileTree.follow, h]
  simp

theorem follow_down
    {name : String}
    {place : List String}
    {entries : List (String × FileTree)}
    (names : List String)
    (h : root.at? place.reverse = some (.directory entries))
    (hDot : name ≠ ".")
    (hUp : name ≠ "..")
    (hName : (entries.lookup name).isSome = true) :
    root.follow place (name :: names) =
      root.follow (name :: place) names := by
  rw [FileTree.follow.eq_def]
  simp [h, hDot, hUp, hName]

/-
  Names that lead somewhere still lead there when the tree has
  grown, to what is there then.
-/
theorem Grows.follow
    {place names : List String}
    {p : Place}
    {entry : FileTree}
    (h : Grows root grown)
    (hPlace : root.follow place names = .ok p)
    (hEntry : grown.at? p.names = some entry) :
    grown.follow place names = .ok (.taken p.names entry) := by
  fun_induction FileTree.follow root place names with
  | case1 place old hOld =>
      cases hPlace
      rw [Place.names] at hEntry ⊢
      rw [FileTree.follow, hEntry]
  | case2 place hOld => cases hPlace
  | case3 place names entries hDirectory ih =>
      rcases h.directory hDirectory with ⟨entries', hDirectory'⟩
      rw [follow_dot names hDirectory']
      exact ih hPlace
  | case4 names entries hDirectory hDot => cases hPlace
  | case5 names entries name above hDirectory hDot ih =>
      rcases h.directory hDirectory with ⟨entries', hDirectory'⟩
      rw [follow_up names hDirectory']
      exact ih hPlace
  | case6 place name names entries hDirectory hDot hUp hName ih =>
      rcases h.directory hDirectory with ⟨entries', hDirectory'⟩
      have hName' := h.isSome_lookup hDirectory hDirectory' hName
      rw [follow_down names hDirectory' hDot hUp hName']
      exact ih hPlace
  | case7 place name names entries hDirectory hDot hUp hName hLast =>
      cases hPlace
      rcases h.directory hDirectory with ⟨entries', hDirectory'⟩
      rw [Place.names] at hEntry ⊢
      have hName' : (entries'.lookup name).isSome = true := by
        rw [List.reverse_cons, at?_concat name hDirectory'] at hEntry
        rw [hEntry]
        rfl
      rw [follow_down names hDirectory' hDot hUp hName',
        List.isEmpty_iff.mp hLast, FileTree.follow, hEntry]
  | case8 place name names entries hDirectory hDot hUp hName hLast =>
      cases hPlace
  | case9 place name names bytes hFile => cases hPlace
  | case10 place name names hNone => cases hPlace

/- A path that leads somewhere still leads there. -/
theorem Grows.locate
    {path : String}
    {p : Place}
    {entry : FileTree}
    (h : Grows root grown)
    (hPlace : root.locate path = .ok p)
    (hEntry : grown.at? p.names = some entry) :
    grown.locate path = .ok (.taken p.names entry) := by
  rw [FileTree.locate] at hPlace ⊢
  split
  · rename_i hPath
    rw [if_pos hPath] at hPlace
    cases hPlace
  · rename_i hPath
    rw [if_neg hPath] at hPlace
    exact h.follow hPlace hEntry

/- A path that leads to a file leads to its bytes of then. -/
theorem Grows.locate_file
    {path : String}
    {names : List String}
    {entry : FileTree}
    {bytes : List UInt8}
    (h : Grows root grown)
    (hPlace : root.locate path = .ok (.taken names entry))
    (hFile : grown.fileAt? names = some bytes) :
    grown.locate path = .ok (.taken names (.file bytes)) := by
  rw [fileAt?_eq_some_iff, look_eq_file_iff] at hFile
  have hLocate := h.locate hPlace hFile
  rwa [Place.names] at hLocate

------------------------------------------------------------
-- Putting Entries
------------------------------------------------------------

/- A place that a leaf can be put at. -/
theorem look_put_place
    {p : Place}
    {tree : FileTree}
    (hPlace : p.Stands root)
    (hFile : ∀ names entry, p = .taken names entry → entry.IsLeaf)
    (hLeaf : tree.IsLeaf)
    (others : List String) :
    (put tree p.names root).look others =
      if others = p.names then some tree.entry
      else root.look others := by
  cases p with
  | free names =>
      rcases hPlace with ⟨above, name, entries, rfl, hAbove, hName⟩
      refine look_put hAbove ?_ hLeaf others
      intro old hOld
      rw [hName] at hOld
      cases hOld
  | taken names entry =>
      have hEntry := hFile names entry rfl
      rw [Place.Stands] at hPlace
      rw [Place.names]
      rcases List.eq_nil_or_concat names with
        rfl | ⟨above, name, hConcat⟩
      · rw [at?_nil, Option.some_inj] at hPlace
        subst hPlace
        rw [put, hLeaf.look, hEntry.look]
        split
        · rfl
        · rfl
      · rw [List.concat_eq_append] at hConcat
        subst hConcat
        rcases exists_directory_of_at?_concat hPlace with
          ⟨entries, hAbove, hName⟩
        refine look_put hAbove ?_ hLeaf others
        intro old hOld
        rw [hName] at hOld
        cases hOld
        exact hEntry

/- A tree with an entry of the same kind put in has grown. -/
theorem grows_of_look
    {names : List String}
    {entry : Entry}
    (hOld : ∀ old, root.look names = some old → old.kind = entry.kind)
    (hLook : ∀ others,
      grown.look others =
        if others = names then some entry else root.look others) :
    Grows root grown := by
  intro others kind hKind
  rw [hLook]
  split
  · rename_i hSame
    subst hSame
    rw [Option.map_eq_some_iff] at hKind
    rcases hKind with ⟨old, hLooked, rfl⟩
    rw [hOld old hLooked]
    rfl
  · exact hKind

/- Nothing is at a free place. -/
theorem look_free
    {names : List String}
    (h : (Place.free names).Stands root) :
    root.look names = none := by
  rcases h with ⟨above, name, entries, rfl, hAbove, hName⟩
  rw [look, at?_concat name hAbove, hName]
  rfl

------------------------------------------------------------
-- Writing Files
------------------------------------------------------------

/-
  What writing a file does: the path leads to the file with its
  new bytes, and no other file is different.
-/
structure Wrote
    (root grown : FileTree)
    (path : String)
    (bytes : List UInt8) : Prop where
  grows :
    Grows root grown
  fileAt? (names : List String) :
    grown.fileAt? names =
      if names = Path.target path then some bytes
      else root.fileAt? names
  locate :
    grown.locate path =
      .ok (.taken (Path.target path) (.file bytes))

/- A file that is written at a place without a directory. -/
theorem wrote_of_locate
    {path : String}
    {bytes : List UInt8}
    {p : Place}
    (hLocate : root.locate path = .ok p)
    (hFile : ∀ names entry,
      p = .taken names entry → ∃ old, entry = .file old) :
    Wrote root (put (.file bytes) p.names root) path bytes := by
  rcases locate_eq_ok hLocate with ⟨hStands, hNames⟩
  have hLook :
      ∀ others,
        (put (.file bytes) p.names root).look others =
          if others = p.names then some (.file bytes)
          else root.look others := by
    refine look_put_place hStands ?_ (isLeaf_file bytes)
    intro names entry hTaken
    rcases hFile names entry hTaken with ⟨old, rfl⟩
    exact isLeaf_file old
  have hGrows : Grows root (put (.file bytes) p.names root) := by
    refine grows_of_look ?_ hLook
    intro old hOld
    cases p with
    | free names =>
        rw [Place.names, look_free hStands] at hOld
        cases hOld
    | taken names entry =>
        rcases hFile names entry rfl with ⟨before, rfl⟩
        rw [Place.Stands] at hStands
        rw [Place.names, FileTree.look, hStands] at hOld
        cases hOld
        rfl
  refine ⟨hGrows, ?_, ?_⟩
  · intro others
    have hOther := hLook others
    rw [← hNames]
    split
    · rename_i hSame
      rw [if_pos hSame] at hOther
      exact fileAt?_eq_some_iff.mpr hOther
    · rename_i hDifferent
      rw [if_neg hDifferent] at hOther
      exact fileAt?_congr hOther
  · have hThere := hLook p.names
    rw [if_pos rfl, look_eq_file_iff] at hThere
    rw [hGrows.locate hLocate hThere, hNames]

/- Writing that succeeds does what writing a file does. -/
theorem wrote_of_writeAt
    {path : String}
    {bytes : List UInt8}
    (h : root.writeAt path bytes = .ok grown) :
    Wrote root grown path bytes := by
  rw [writeAt] at h
  split at h
  · rename_i names old hLocate
    cases h
    exact wrote_of_locate hLocate fun names entry hTaken =>
      ⟨old, by cases hTaken; rfl⟩
  · cases h
  · rename_i names hLocate
    cases h
    exact wrote_of_locate hLocate nofun
  · split at h
    · split at h <;> cases h
    · cases h
  · cases h

------------------------------------------------------------
-- Making Directories
------------------------------------------------------------

/- A tree with more directories, and the same otherwise. -/
def AddsDirectories
    (root grown : FileTree) : Prop :=
  ∀ names,
    grown.look names = root.look names ∨
      (root.look names = none ∧
        grown.look names = some .directory)

theorem AddsDirectories.refl
    (root : FileTree) :
    AddsDirectories root root := fun _ =>
  .inl rfl

theorem AddsDirectories.trans
    {later : FileTree}
    (h : AddsDirectories root grown)
    (hLater : AddsDirectories grown later) :
    AddsDirectories root later := by
  intro names
  rcases hLater names with hSame | ⟨hNone, hNew⟩
  · rw [hSame]
    exact h names
  · rcases h names with hSame' | ⟨_, hOld⟩
    · rw [hSame'] at hNone
      exact .inr ⟨hNone, hNew⟩
    · rw [hNone] at hOld
      cases hOld

theorem AddsDirectories.grows
    (h : AddsDirectories root grown) :
    Grows root grown := by
  intro names kind hKind
  rcases h names with hSame | ⟨hNone, _⟩
  · rw [hSame]
    exact hKind
  · rw [hNone] at hKind
    cases hKind

/- New directories are no files. -/
theorem AddsDirectories.fileAt?
    (h : AddsDirectories root grown)
    (names : List String) :
    grown.fileAt? names = root.fileAt? names := by
  rcases h names with hSame | ⟨hNone, hNew⟩
  · exact fileAt?_congr hSame
  · rw [FileTree.fileAt?, FileTree.fileAt?, hNone, hNew]

/- Making a directory adds one. -/
theorem addsDirectories_of_makeAt
    {path : String}
    (h : root.makeAt path = .ok grown) :
    AddsDirectories root grown := by
  rw [makeAt] at h
  split at h
  · cases h
  · rename_i names hLocate
    cases h
    have hStands := (locate_eq_ok hLocate).1
    intro others
    have hLook := look_put_place hStands nofun isLeaf_empty others
    rw [Place.names] at hLook
    rw [hLook]
    split
    · rename_i hSame
      rw [hSame]
      exact .inr ⟨look_free hStands, rfl⟩
    · exact .inl rfl
  · cases h

end FileTree

end TreeWire
