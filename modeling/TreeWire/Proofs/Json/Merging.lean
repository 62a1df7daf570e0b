import Mathlib.Data.List.Forall2
import Mathlib.Data.List.Induction
import TreeWire.Json.Parser

/-
  Members with repeated keys, merged.

  Members are merged one by one: a member takes the place of the
  one before it with the same key, or stands at the end.  So the
  keys of merged members are different, every key has its last
  value, and members with different keys stay as they are.

  Key definitions include:
    * `setMember`
    * `mergeMembers`

  Main statements:
    * `lookup_mergeMembers`
    * `nodup_mergeMembers`
    * `mergeMembers_of_nodup`
    * `mergeMembers_related`
-/

namespace TreeWire

variable {α β : Type}

------------------------------------------------------------
-- Setting One Member
------------------------------------------------------------

/- The keys of members. -/
def keysOf
    (members : List (String × α)) : List String :=
  members.map Prod.fst

/- Set a member in place of the one with its key, or at the end. -/
def setMember
    (m : String × α) :
    List (String × α) → List (String × α)
  | [] =>
      [m]
  | old :: rest =>
      if old.1 = m.1 then m :: rest else old :: setMember m rest

theorem insert_eq_setMember
    (key : String)
    (value : Json)
    (members : List (String × Json)) :
    Json.insert key value members =
      setMember (key, value) members := by
  induction members with
  | nil => rfl
  | cons old rest ih =>
      rcases old with ⟨name, j⟩
      rw [Json.insert, setMember, ih]
      by_cases hName : name = key
      · rw [if_pos hName, if_pos hName, hName]
      · rw [if_neg hName, if_neg hName]

theorem keysOf_setMember
    (m : String × α)
    (members : List (String × α)) :
    keysOf (setMember m members) =
      if m.1 ∈ keysOf members then keysOf members
      else keysOf members ++ [m.1] := by
  induction members with
  | nil => simp [setMember, keysOf]
  | cons old rest ih =>
      rw [setMember]
      by_cases hKey : old.1 = m.1
      · simp [keysOf, hKey]
      · have hOther : m.1 ≠ old.1 := fun hEq => hKey hEq.symm
        have hMem :
            m.1 ∈ keysOf (old :: rest) ↔ m.1 ∈ keysOf rest := by
          simp [keysOf, hOther]
        have hCons :
            ∀ more : List (String × α),
              keysOf (old :: more) = old.1 :: keysOf more :=
          fun _ => rfl
        rw [if_neg hKey, hCons, ih]
        by_cases hOld : m.1 ∈ keysOf rest
        · rw [if_pos hOld, if_pos (hMem.mpr hOld), hCons]
        · rw [if_neg hOld, if_neg fun hBoth => hOld (hMem.mp hBoth),
            hCons, List.cons_append]

theorem nodup_setMember
    {m : String × α}
    {members : List (String × α)}
    (h : (keysOf members).Nodup) :
    (keysOf (setMember m members)).Nodup := by
  rw [keysOf_setMember]
  split
  · exact h
  · rename_i hNew
    rw [List.nodup_append]
    refine ⟨h, by simp, ?_⟩
    intro key hOld other hOther
    rw [List.mem_singleton] at hOther
    subst hOther
    intro hEq
    rw [hEq] at hOld
    exact hNew hOld

theorem lookup_member
    (m : String × α)
    (members : List (String × α))
    (key : String) :
    (m :: members).lookup key =
      if key = m.1 then some m.2 else members.lookup key := by
  rw [List.lookup_cons]
  by_cases hKey : key = m.1
  · simp [hKey]
  · have hTest : (key == m.1) = false := by
      simpa using hKey
    rw [hTest, if_neg hKey]

/- A member that is set is found, and no other is changed. -/
theorem lookup_setMember
    (m : String × α)
    (members : List (String × α))
    (key : String) :
    (setMember m members).lookup key =
      (m :: members).lookup key := by
  induction members with
  | nil => rfl
  | cons old rest ih =>
      rw [setMember]
      by_cases hKey : old.1 = m.1
      · rw [if_pos hKey, lookup_member, lookup_member,
          lookup_member, hKey]
        by_cases hNew : key = m.1
        · rw [if_pos hNew, if_pos hNew]
        · rw [if_neg hNew, if_neg hNew, if_neg hNew]
      · rw [if_neg hKey, lookup_member, ih, lookup_member,
          lookup_member, lookup_member]
        by_cases hOld : key = old.1
        · have hOther : key ≠ m.1 := by
            rw [hOld]
            exact hKey
          rw [if_pos hOld, if_neg hOther, if_pos hOld]
        · rw [if_neg hOld, if_neg hOld]

theorem mem_setMember
    {m n : String × α}
    {members : List (String × α)}
    (h : n ∈ setMember m members) :
    n = m ∨ n ∈ members := by
  induction members with
  | nil =>
      rw [setMember, List.mem_singleton] at h
      exact .inl h
  | cons old rest ih =>
      rw [setMember] at h
      split at h
      · rcases List.mem_cons.mp h with hFirst | hRest
        · exact .inl hFirst
        · exact .inr (List.mem_cons_of_mem old hRest)
      · rcases List.mem_cons.mp h with hFirst | hRest
        · rw [hFirst]
          exact .inr List.mem_cons_self
        · rcases ih hRest with hNew | hOld
          · exact .inl hNew
          · exact .inr (List.mem_cons_of_mem old hOld)

------------------------------------------------------------
-- Merging All
------------------------------------------------------------

/- Set members one after another. -/
def mergeMembers
    (members : List (String × α)) : List (String × α) :=
  members.foldl (fun done m => setMember m done) []

theorem foldl_insert
    (members : List (String × Json)) :
    members.foldl (fun done (key, j) => Json.insert key j done) [] =
      mergeMembers members := by
  have hStep :
      (fun done (m : String × Json) => Json.insert m.1 m.2 done) =
        fun done m => setMember m done := by
    funext done m
    exact insert_eq_setMember m.1 m.2 done
  exact congrArg (fun f => members.foldl f []) hStep

theorem mergeMembers_concat
    (members : List (String × α))
    (m : String × α) :
    mergeMembers (members ++ [m]) =
      setMember m (mergeMembers members) := by
  rw [mergeMembers, List.foldl_append]
  rfl

/- The keys of merged members are different. -/
theorem nodup_mergeMembers
    (members : List (String × α)) :
    (keysOf (mergeMembers members)).Nodup := by
  induction members using List.reverseRecOn with
  | nil => exact List.nodup_nil
  | append_singleton members m ih =>
      rw [mergeMembers_concat]
      exact nodup_setMember ih

/- Every key has its last value. -/
theorem lookup_mergeMembers
    (members : List (String × α))
    (key : String) :
    (mergeMembers members).lookup key =
      members.reverse.lookup key := by
  induction members using List.reverseRecOn with
  | nil => rfl
  | append_singleton members m ih =>
      rw [mergeMembers_concat, lookup_setMember, lookup_member, ih,
        List.reverse_concat, lookup_member]

theorem mem_of_mem_mergeMembers
    {members : List (String × α)}
    {m : String × α}
    (h : m ∈ mergeMembers members) :
    m ∈ members := by
  induction members using List.reverseRecOn with
  | nil => exact h
  | append_singleton members n ih =>
      rw [mergeMembers_concat] at h
      rw [List.mem_append, List.mem_singleton]
      rcases mem_setMember h with hNew | hOld
      · exact .inr hNew
      · exact .inl (ih hOld)

/- Among different keys a member is found from either end. -/
theorem lookup_reverse_of_nodup
    {members : List (String × α)}
    (h : (keysOf members).Nodup)
    (key : String) :
    members.reverse.lookup key = members.lookup key := by
  induction members with
  | nil => rfl
  | cons m rest ih =>
      have hParts : m.1 ∉ keysOf rest ∧ (keysOf rest).Nodup :=
        List.nodup_cons.mp h
      rw [List.reverse_cons, List.lookup_append, ih hParts.2,
        lookup_member, lookup_member]
      by_cases hKey : key = m.1
      · have hNone : rest.lookup key = none := by
          rw [List.lookup_eq_none_iff]
          intro n hMem
          have hOther : key ≠ n.1 := by
            intro hEq
            apply hParts.1
            rw [← hKey, hEq]
            exact List.mem_map_of_mem hMem
          simpa using hOther
        rw [hNone, if_pos hKey, if_pos hKey, Option.none_or]
      · rw [if_neg hKey, if_neg hKey]
        exact Option.or_none

/- A member with a new key stands at the end. -/
theorem setMember_of_not_mem
    {m : String × α}
    {members : List (String × α)}
    (h : m.1 ∉ keysOf members) :
    setMember m members = members ++ [m] := by
  induction members with
  | nil => rfl
  | cons old rest ih =>
      have hParts : m.1 ≠ old.1 ∧ m.1 ∉ keysOf rest := by
        simpa [keysOf] using h
      rw [setMember, if_neg fun hEq => hParts.1 hEq.symm,
        ih hParts.2, List.cons_append]

/- Members with different keys stay as they are. -/
theorem mergeMembers_of_nodup
    {members : List (String × α)}
    (h : (keysOf members).Nodup) :
    mergeMembers members = members := by
  induction members using List.reverseRecOn with
  | nil => rfl
  | append_singleton members m ih =>
      have hParts :
          (keysOf members).Nodup ∧ m.1 ∉ keysOf members := by
        rw [keysOf, List.map_append, List.nodup_append] at h
        refine ⟨h.1, ?_⟩
        intro hMem
        exact h.2.2 m.1 hMem m.1 (by simp) rfl
      rw [mergeMembers_concat, ih hParts.1,
        setMember_of_not_mem hParts.2]

/- A first member whose key does not come again stays first. -/
theorem mergeMembers_cons_of_not_mem
    {m : String × α}
    {members : List (String × α)}
    (h : m.1 ∉ keysOf members) :
    mergeMembers (m :: members) = m :: mergeMembers members := by
  induction members using List.reverseRecOn with
  | nil => rfl
  | append_singleton members n ih =>
      have hParts : m.1 ∉ keysOf members ∧ m.1 ≠ n.1 := by
        simpa [keysOf, not_or] using h
      rw [← List.cons_append, mergeMembers_concat, ih hParts.1,
        setMember, if_neg hParts.2, mergeMembers_concat]

theorem setMember_ne_nil
    (m : String × α)
    (members : List (String × α)) :
    setMember m members ≠ [] := by
  cases members with
  | nil => exact List.cons_ne_nil m []
  | cons old rest =>
      rw [setMember]
      split <;> exact List.cons_ne_nil _ _

theorem mergeMembers_ne_nil
    {members : List (String × α)}
    (h : members ≠ []) :
    mergeMembers members ≠ [] := by
  rw [← List.dropLast_concat_getLast h, mergeMembers_concat]
  exact setMember_ne_nil _ _

------------------------------------------------------------
-- Related Members
------------------------------------------------------------

section

variable {R : String × α → String × β → Prop}

theorem setMember_related
    {m : String × α}
    {n : String × β}
    {members : List (String × α)}
    {others : List (String × β)}
    (hKeys : ∀ {m n}, R m n → m.1 = n.1)
    (hNew : R m n)
    (h : List.Forall₂ R members others) :
    List.Forall₂ R (setMember m members) (setMember n others) := by
  induction h with
  | nil => exact .cons hNew .nil
  | cons hFirst hRest ih =>
      rw [setMember, setMember, hKeys hFirst, hKeys hNew]
      split
      · exact .cons hNew hRest
      · exact .cons hFirst ih

/- Members that are related one by one are merged alike. -/
theorem mergeMembers_related
    {members : List (String × α)}
    {others : List (String × β)}
    (hKeys : ∀ {m n}, R m n → m.1 = n.1)
    (h : List.Forall₂ R members others) :
    List.Forall₂ R (mergeMembers members)
      (mergeMembers others) := by
  have hFold :
      ∀ {done : List (String × α)} {done' : List (String × β)},
        List.Forall₂ R done done' →
          List.Forall₂ R
            (members.foldl (fun done m => setMember m done) done)
            (others.foldl (fun done m => setMember m done) done') := by
    induction h with
    | nil => exact fun hDone => hDone
    | cons hFirst _ ih =>
        intro done done' hDone
        exact ih (setMember_related hKeys hFirst hDone)
  exact hFold .nil

end

end TreeWire
