import TreeWire.Files.Tree

/-
  File trees as maps from names to entries.

  A tree is looked at as a map: names lead to a file with bytes,
  to a directory or to nothing.  Putting a file or an empty
  directory into a directory, where there is no directory yet,
  changes the map at its own names only.

  Key definitions include:
    * `FileTree.Entry`
    * `FileTree.look`
    * `FileTree.fileAt?`

  Main statements:
    * `FileTree.at?_append`
    * `FileTree.lookup_putEntry`
    * `FileTree.look_put`
-/

namespace TreeWire

namespace FileTree

------------------------------------------------------------
-- Entries
------------------------------------------------------------

/- An entry without what is below it. -/
inductive Entry where
  | file (bytes : List UInt8)
  | directory
  deriving DecidableEq, Repr, Inhabited

/- What a tree is at its root. -/
def entry : FileTree → Entry
  | .file bytes => .file bytes
  | .directory _ => .directory

/- The entry that names lead to. -/
def look
    (tree : FileTree)
    (names : List String) : Option Entry :=
  (tree.at? names).map entry

/- The bytes of the file that names lead to. -/
def fileAt?
    (tree : FileTree)
    (names : List String) : Option (List UInt8) :=
  match tree.look names with
  | some (.file bytes) => some bytes
  | _ => none

variable
  {tree root : FileTree}

theorem fileAt?_eq_some_iff
    {names : List String}
    {bytes : List UInt8} :
    tree.fileAt? names = some bytes ↔
      tree.look names = some (.file bytes) := by
  rw [fileAt?]
  cases tree.look names with
  | none => simp
  | some entry => cases entry <;> simp

theorem look_eq_file_iff
    {names : List String}
    {bytes : List UInt8} :
    tree.look names = some (.file bytes) ↔
      tree.at? names = some (.file bytes) := by
  rw [look, Option.map_eq_some_iff]
  constructor
  · rintro ⟨found, hFound, hEntry⟩
    cases found with
    | file bytes' =>
        cases hEntry
        exact hFound
    | directory entries => cases hEntry
  · intro h
    exact ⟨_, h, rfl⟩

/- Trees that look alike at some names have the same file there. -/
theorem fileAt?_congr
    {other : FileTree}
    {names : List String}
    (h : tree.look names = other.look names) :
    tree.fileAt? names = other.fileAt? names := by
  rw [fileAt?, fileAt?, h]

------------------------------------------------------------
-- Names in a Row
------------------------------------------------------------

@[simp] theorem at?_nil :
    tree.at? [] = some tree := by
  rw [at?]

@[simp] theorem at?_file_cons
    (bytes : List UInt8)
    (name : String)
    (names : List String) :
    (FileTree.file bytes).at? (name :: names) = none := by
  rw [at?]

@[simp] theorem at?_directory_cons
    (entries : List (String × FileTree))
    (name : String)
    (names : List String) :
    (FileTree.directory entries).at? (name :: names) =
      (entries.lookup name).bind fun entry => entry.at? names := by
  rw [at?]
  cases entries.lookup name <;> rfl

theorem look_directory_cons
    (entries : List (String × FileTree))
    (name : String)
    (names : List String) :
    (FileTree.directory entries).look (name :: names) =
      (entries.lookup name).bind fun entry => entry.look names := by
  rw [look, at?_directory_cons]
  cases entries.lookup name <;> rfl

/- Names behind others start where the others lead to. -/
theorem at?_append
    (tree : FileTree)
    (names more : List String) :
    tree.at? (names ++ more) =
      (tree.at? names).bind fun entry => entry.at? more := by
  induction names generalizing tree with
  | nil => simp
  | cons name names ih =>
      cases tree with
      | file bytes => simp
      | directory entries =>
          cases hEntry : entries.lookup name with
          | none => simp [hEntry]
          | some entry => simp [hEntry, ih]

/- A name in a directory leads to its entry. -/
theorem at?_concat
    {names : List String}
    {entries : List (String × FileTree)}
    (name : String)
    (h : root.at? names = some (.directory entries)) :
    root.at? (names ++ [name]) = entries.lookup name := by
  rw [at?_append, h]
  simp

/- There is a directory above every entry but the root. -/
theorem exists_directory_of_at?_concat
    {names : List String}
    {name : String}
    (h : root.at? (names ++ [name]) = some tree) :
    ∃ entries,
      root.at? names = some (.directory entries) ∧
        entries.lookup name = some tree := by
  rw [at?_append] at h
  cases hAbove : root.at? names with
  | none =>
      rw [hAbove] at h
      cases h
  | some above =>
      rw [hAbove, Option.bind_some] at h
      cases above with
      | file bytes => simp at h
      | directory entries => exact ⟨entries, rfl, by simpa using h⟩

------------------------------------------------------------
-- Putting an Entry
------------------------------------------------------------

theorem lookup_cons
    (name other : String)
    (entry : FileTree)
    (rest : List (String × FileTree)) :
    ((name, entry) :: rest).lookup other =
      if other = name then some entry else rest.lookup other := by
  rw [List.lookup_cons]
  by_cases h : other = name
  · rw [if_pos h, beq_iff_eq.mpr h]
  · rw [if_neg h, beq_eq_false_iff_ne.mpr h]

theorem lookup_putEntry
    (name other : String)
    (entry : FileTree)
    (entries : List (String × FileTree)) :
    (putEntry name entry entries).lookup other =
      if other = name then some entry else entries.lookup other := by
  induction entries with
  | nil => rw [putEntry, lookup_cons]
  | cons first rest ih =>
      rcases first with ⟨taken, old⟩
      rw [putEntry]
      by_cases hTaken : taken = name
      · subst hTaken
        rw [if_pos rfl, lookup_cons, lookup_cons]
        split
        · rfl
        · rfl
      · rw [if_neg hTaken, lookup_cons, lookup_cons, ih]
        by_cases hOther : other = taken
        · subst hOther
          rw [if_pos rfl, if_pos rfl, if_neg hTaken]
        · rw [if_neg hOther, if_neg hOther]

/- Nothing is below an entry. -/
def IsLeaf
    (tree : FileTree) : Prop :=
  ∀ name names, tree.at? (name :: names) = none

theorem isLeaf_file
    (bytes : List UInt8) :
    (FileTree.file bytes).IsLeaf := by
  intro name names
  simp

theorem isLeaf_empty :
    empty.IsLeaf := by
  intro name names
  simp [empty]

/- The only entry of a leaf is its root. -/
theorem IsLeaf.look
    {names : List String}
    (h : tree.IsLeaf) :
    tree.look names = if names = [] then some tree.entry else none := by
  cases names with
  | nil => simp [FileTree.look]
  | cons name names => simp [FileTree.look, h name names]

/- Putting a leaf into a directory changes one of its entries. -/
theorem look_put_entry
    {entries : List (String × FileTree)}
    {name : String}
    (hOld : ∀ old, entries.lookup name = some old → old.IsLeaf)
    (hLeaf : tree.IsLeaf)
    (others : List String) :
    (put tree [name] (.directory entries)).look others =
      if others = [name] then some tree.entry
      else (FileTree.directory entries).look others := by
  cases others with
  | nil => rfl
  | cons other others =>
      rw [put, put, look_directory_cons, look_directory_cons,
        lookup_putEntry]
      by_cases hName : other = name
      · subst hName
        rw [if_pos rfl, Option.bind_some, hLeaf.look]
        by_cases hNames : others = []
        · rw [if_pos hNames, if_pos (by rw [hNames])]
        · have hDifferent : other :: others ≠ [other] := by
            simpa using hNames
          rw [if_neg hNames, if_neg hDifferent]
          cases hEntry : entries.lookup other with
          | none => rfl
          | some old =>
              rw [Option.bind_some, (hOld old hEntry).look,
                if_neg hNames]
      · have hDifferent : other :: others ≠ [name] := by
          simp [hName]
        rw [if_neg hName, if_neg hDifferent]

/-
  Putting a leaf into a directory, in place of nothing or of
  another leaf, changes what its own names lead to, and nothing
  else.  The induction is on the names of the directory.
-/
theorem look_put
    {names : List String}
    {entries : List (String × FileTree)}
    {name : String}
    (hDirectory : root.at? names = some (.directory entries))
    (hOld : ∀ old, entries.lookup name = some old → old.IsLeaf)
    (hLeaf : tree.IsLeaf)
    (others : List String) :
    (put tree (names ++ [name]) root).look others =
      if others = names ++ [name] then some tree.entry
      else root.look others := by
  induction names generalizing root others with
  | nil =>
      rw [at?_nil, Option.some_inj] at hDirectory
      subst hDirectory
      exact look_put_entry hOld hLeaf others
  | cons first names ih =>
      cases root with
      | file bytes => simp at hDirectory
      | directory rootEntries =>
          rw [at?_directory_cons, Option.bind_eq_some_iff] at hDirectory
          rcases hDirectory with ⟨below, hFirst, hBelow⟩
          cases others with
          | nil => rfl
          | cons other others =>
              rw [List.cons_append, put, hFirst, Option.getD_some,
                look_directory_cons, look_directory_cons,
                lookup_putEntry]
              by_cases hName : other = first
              · subst hName
                rw [if_pos rfl, hFirst, Option.bind_some,
                  Option.bind_some, ih hBelow]
                simp only [List.cons.injEq, true_and]
              · have hDifferent :
                    other :: others ≠ first :: (names ++ [name]) := by
                  simp [hName]
                rw [if_neg hName, if_neg hDifferent]

end FileTree

end TreeWire
