import TreeWire.Proofs.Files.Trees

/-
  Where paths lead in a file tree.

  There are no links, so the names that a path comes to depend on
  the path alone: a dot stays, two dots go up, and any other name
  goes down.  The tree only decides whether the path leads there
  at all.

  Key definitions include:
    * `Path.target`
    * `FileTree.Place.Stands`

  Main statements:
    * `FileTree.locate_eq_ok`
-/

namespace TreeWire

------------------------------------------------------------
-- Names of Paths
------------------------------------------------------------

namespace Path

/- Names after others, innermost name first. -/
def steps
    (place : List String) : List String → List String
  | [] =>
      place
  | name :: names =>
      if name = "." then
        steps place names
      else if name = ".." then
        steps place.tail names
      else
        steps (name :: place) names

/- The names that a path comes to, from the root on. -/
def target
    (path : String) : List String :=
  (steps [] (components path)).reverse

theorem steps_append
    (place names more : List String) :
    steps place (names ++ more) = steps (steps place names) more := by
  induction names generalizing place with
  | nil => rfl
  | cons name names ih =>
      rw [List.cons_append, steps, steps, ih, ih, ih]
      split
      · rfl
      · split
        · rfl
        · rfl

end Path

namespace FileTree

variable
  {root : FileTree}

------------------------------------------------------------
-- Places
------------------------------------------------------------

namespace Place

/- The names of a place. -/
def names : Place → List String
  | .taken names _ => names
  | .free names => names

/- A place is what it says about a tree. -/
def Stands
    (root : FileTree) : Place → Prop
  | .taken names entry =>
      root.at? names = some entry
  | .free names =>
      ∃ above name entries,
        names = above ++ [name] ∧
          root.at? above = some (.directory entries) ∧
            entries.lookup name = none

end Place

/- Names lead where the names alone say, if they lead anywhere. -/
theorem follow_eq_ok
    {place names : List String}
    {p : Place}
    (h : root.follow place names = .ok p) :
    p.Stands root ∧ p.names = (Path.steps place names).reverse := by
  fun_induction follow root place names with
  | case1 place entry hEntry =>
      cases h
      exact ⟨hEntry, rfl⟩
  | case2 place hEntry => cases h
  | case3 place names entries hEntry ih =>
      rw [Path.steps, if_pos rfl]
      exact ih h
  | case4 names entries hEntry hDot => cases h
  | case5 names entries name above hEntry hDot ih =>
      rw [Path.steps, if_neg hDot, if_pos rfl]
      exact ih h
  | case6 place name names entries hEntry hDot hUp hName ih =>
      rw [Path.steps, if_neg hDot, if_neg hUp]
      exact ih h
  | case7 place name names entries hEntry hDot hUp hName hLast =>
      cases h
      rw [List.isEmpty_iff.mp hLast, Path.steps, if_neg hDot,
        if_neg hUp, Path.steps]
      refine ⟨⟨place.reverse, name, entries, ?_, hEntry, ?_⟩, rfl⟩
      · rw [List.reverse_cons]
      · exact Option.not_isSome_iff_eq_none.mp hName
  | case8 place name names entries hEntry hDot hUp hName hLast =>
      cases h
  | case9 place name names bytes hEntry => cases h
  | case10 place name names hEntry => cases h

/- A path leads to its names, if it leads anywhere. -/
theorem locate_eq_ok
    {path : String}
    {p : Place}
    (h : root.locate path = .ok p) :
    p.Stands root ∧ p.names = Path.target path := by
  rw [locate] at h
  split at h
  · cases h
  · exact follow_eq_ok h

end FileTree

end TreeWire
