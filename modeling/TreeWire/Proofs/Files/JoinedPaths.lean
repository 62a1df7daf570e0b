import TreeWire.Proofs.Files.Places

/-
  Names below a path.

  A plain name has no slash in it, is not empty and is no dots.
  A path that is joined with a plain name leads to that name in
  the directory that the path leads to, whether the path ends
  with a slash or not.

  Key definitions include:
    * `Path.IsPlain`

  Main statements:
    * `splitAtMark_append`
    * `Path.target_join`
-/

namespace TreeWire

------------------------------------------------------------
-- Cutting at a Mark
------------------------------------------------------------

/- There is always a first part. -/
theorem splitAtMark_ne_nil
    (mark : Char)
    (cs : List Char) :
    splitAtMark mark cs ≠ [] := by
  cases cs with
  | nil => exact List.cons_ne_nil _ _
  | cons c cs =>
      rw [splitAtMark]
      split
      · exact List.cons_ne_nil _ _
      · split
        · exact List.cons_ne_nil _ _
        · exact List.cons_ne_nil _ _

/- Characters without the mark are one part. -/
theorem splitAtMark_of_notMem
    {mark : Char}
    {cs : List Char}
    (h : mark ∉ cs) :
    splitAtMark mark cs = [cs] := by
  induction cs with
  | nil => rfl
  | cons c cs ih =>
      rw [List.mem_cons, not_or] at h
      rw [splitAtMark, if_neg (Ne.symm h.1), ih h.2]

/- The parts on both sides of a mark. -/
theorem splitAtMark_append
    (mark : Char)
    (cs ds : List Char) :
    splitAtMark mark (cs ++ mark :: ds) =
      splitAtMark mark cs ++ splitAtMark mark ds := by
  induction cs with
  | nil => simp [splitAtMark]
  | cons c cs ih =>
      rw [List.cons_append, splitAtMark, splitAtMark, ih]
      split
      · rfl
      · cases hParts : splitAtMark mark cs with
        | nil => exact absurd hParts (splitAtMark_ne_nil mark cs)
        | cons part parts => rfl

namespace Path

------------------------------------------------------------
-- Names of Characters
------------------------------------------------------------

/- The names between slashes; empty ones do not count. -/
def namesBetween
    (cs : List Char) : List String :=
  ((splitAtMark '/' cs).filter (· ≠ [])).map String.ofList

theorem components_eq
    (path : String) :
    components path =
      namesBetween path.toList
        ++ (if endsWithSlash path then ["."] else []) :=
  rfl

theorem namesBetween_append
    (cs ds : List Char) :
    namesBetween (cs ++ '/' :: ds) =
      namesBetween cs ++ namesBetween ds := by
  rw [namesBetween, splitAtMark_append, List.filter_append,
    List.map_append]
  rfl

/- The name of an entry in a directory, and of nothing else. -/
structure IsPlain
    (name : String) : Prop where
  nonempty : name.toList ≠ []
  noSlash : '/' ∉ name.toList
  noDot : name ≠ "."
  noDots : name ≠ ".."

variable
  {name : String}

theorem IsPlain.namesBetween
    (h : IsPlain name) :
    namesBetween name.toList = [name] := by
  rw [Path.namesBetween, splitAtMark_of_notMem h.noSlash,
    List.filter_cons_of_pos (by simpa using h.nonempty),
    List.filter_nil, List.map_singleton, String.ofList_toList]

theorem IsPlain.isAbsolute
    (h : IsPlain name) :
    isAbsolute name = false := by
  rw [Path.isAbsolute, decide_eq_false_iff_not]
  intro hHead
  exact h.noSlash (List.mem_of_mem_head? hHead)

/- A dot at the end leads nowhere else. -/
theorem target_eq
    (path : String) :
    target path =
      (steps [] (Path.namesBetween path.toList)).reverse := by
  rw [target, components_eq, steps_append]
  split
  · rfl
  · rfl

------------------------------------------------------------
-- Joined Paths
------------------------------------------------------------

/- A joined path has the names of the directory, and the name. -/
theorem namesBetween_join
    (directory : String)
    (h : IsPlain name) :
    Path.namesBetween (join directory name).toList =
      Path.namesBetween directory.toList ++ [name] := by
  have hBehind :
      ∀ cs : List Char,
        Path.namesBetween (cs ++ '/' :: name.toList) =
          Path.namesBetween cs ++ [name] := by
    intro cs
    rw [namesBetween_append, h.namesBetween]
  rw [join, h.isAbsolute, if_neg (by decide)]
  by_cases hEmpty : directory.isEmpty = true
  · have hNone : directory = "" := by simpa using hEmpty
    subst hNone
    rw [if_pos (by rfl), String.toList_append]
    exact h.namesBetween
  by_cases hSlash : endsWithSlash directory = true
  · rw [if_pos (by simp [hSlash]), String.toList_append]
    rw [endsWithSlash, decide_eq_true_eq,
      List.getLast?_eq_some_iff] at hSlash
    rcases hSlash with ⟨cs, hChars⟩
    have hNothing : Path.namesBetween [] = [] := rfl
    rw [hChars, List.append_assoc, List.singleton_append, hBehind,
      namesBetween_append, hNothing, List.append_nil]
  · rw [if_neg (by simp [hEmpty, hSlash]), String.toList_append,
      String.toList_append, List.append_assoc]
    exact hBehind directory.toList

/- A joined path leads to the name in the directory. -/
theorem target_join
    (directory : String)
    (h : IsPlain name) :
    target (join directory name) = target directory ++ [name] := by
  rw [target_eq, target_eq, namesBetween_join directory h,
    steps_append, steps, if_neg h.noDot, if_neg h.noDots, steps,
    List.reverse_cons]

end Path

end TreeWire
