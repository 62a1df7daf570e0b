import TreeWire.Proofs.Action
import TreeWire.Source.Cursor

/-
  Cursors that move over bytes.

  `Cursor.Reads c used c'` says that a cursor has moved over
  the bytes `used`.  A cursor is clear when what comes next can
  be looked at, be it a byte or the end.

  Main statements:
    * `Cursor.Reads.append_iff`
    * `Cursor.Reads.unique`
    * `Cursor.peek_eq_ok_iff`
    * `Cursor.bump_some_iff`
    * `Cursor.takeWhile_eq_ok_iff`
-/

namespace TreeWire

------------------------------------------------------------
-- Moving Over Bytes
------------------------------------------------------------

namespace Cursor

/- A cursor has moved over bytes. -/
structure Reads
    (c : Cursor)
    (used : List UInt8)
    (c' : Cursor) : Prop where
  unread : c.unread = used ++ c'.unread
  fault : c'.fault = c.fault
  position : c'.position = used.foldl Position.advance c.position

/- What comes next can be looked at. -/
def Clear
    (c : Cursor) : Prop :=
  c.unread = [] → c.fault = none

namespace Reads

variable {c c₁ c' : Cursor}

/- Where a cursor comes to, by what it moves over. -/
theorem eq_mk
    {used : List UInt8}
    (h : c.Reads used c') :
    c' = ⟨c'.unread, c.fault,
      used.foldl Position.advance c.position⟩ := by
  cases c'
  simp only [mk.injEq]
  exact ⟨trivial, h.fault, h.position⟩

theorem nil_iff :
    c.Reads [] c' ↔ c' = c := by
  constructor
  · intro h
    have hUnread : c.unread = c'.unread := h.unread
    rw [h.eq_mk, ← hUnread]
    rfl
  · intro hEq
    subst hEq
    exact ⟨rfl, rfl, rfl⟩

theorem append
    {used more : List UInt8}
    (h : c.Reads used c₁)
    (hMore : c₁.Reads more c') :
    c.Reads (used ++ more) c' where
  unread := by
    rw [h.unread, hMore.unread, List.append_assoc]
  fault := by
    rw [hMore.fault, h.fault]
  position := by
    rw [hMore.position, h.position, List.foldl_append]

/- Moving over bytes one part after the other. -/
theorem append_iff
    {used more : List UInt8} :
    c.Reads (used ++ more) c' ↔
      ∃ c₁, c.Reads used c₁ ∧ c₁.Reads more c' := by
  constructor
  · intro h
    refine ⟨⟨more ++ c'.unread, c.fault,
      used.foldl Position.advance c.position⟩, ?_, ?_⟩
    · exact ⟨by rw [h.unread, List.append_assoc], rfl, rfl⟩
    · exact ⟨rfl, h.fault, by rw [h.position, List.foldl_append]⟩
  · intro hParts
    rcases hParts with ⟨c₁, hUsed, hMore⟩
    exact hUsed.append hMore

theorem cons_iff
    {b : UInt8}
    {more : List UInt8} :
    c.Reads (b :: more) c' ↔
      ∃ c₁, c.Reads [b] c₁ ∧ c₁.Reads more c' := by
  rw [← append_iff, List.singleton_append]

/- Where a cursor comes to is settled by what it moves over. -/
theorem unique
    {used : List UInt8}
    (h : c.Reads used c₁)
    (h' : c.Reads used c') :
    c₁ = c' := by
  have hUnread : c₁.unread = c'.unread :=
    List.append_cancel_left (h.unread.symm.trans h'.unread)
  rw [h.eq_mk, h'.eq_mk, hUnread]

/- A cursor is clear if it is clear further on. -/
theorem clear
    {used : List UInt8}
    (h : c.Reads used c')
    (hClear : c'.Clear) :
    c.Clear := by
  intro hNil
  have hUnread := h.unread
  rw [hNil] at hUnread
  rw [← h.fault]
  exact hClear (List.append_eq_nil_iff.mp hUnread.symm).2

/- What comes next is the first byte that is read. -/
theorem head?_unread
    {b : UInt8}
    {used : List UInt8}
    (h : c.Reads (b :: used) c') :
    c.unread.head? = some b := by
  rw [h.unread]
  rfl

/- A byte that is there can be looked at. -/
theorem clear_of_cons
    {b : UInt8}
    {used : List UInt8}
    (h : c.Reads (b :: used) c') :
    c.Clear := by
  intro hNil
  have hUnread := h.unread
  rw [hNil] at hUnread
  cases hUnread

/- A cursor can move over what is unread. -/
theorem of_unread
    {used rest : List UInt8}
    (h : c.unread = used ++ rest) :
    ∃ c', c.Reads used c' ∧ c'.unread = rest :=
  ⟨⟨rest, c.fault, used.foldl Position.advance c.position⟩,
    ⟨h, rfl, rfl⟩, rfl⟩

end Reads

------------------------------------------------------------
-- Single Bytes
------------------------------------------------------------

variable {c c' : Cursor}

theorem peek_eq_ok_iff
    {next : Option UInt8} :
    peek c = (.ok next, c') ↔
      c' = c ∧ next = c.unread.head? ∧ c.Clear := by
  rcases c with ⟨_ | ⟨b, rest⟩, _ | message, position⟩
  · constructor
    · intro h
      cases h
      exact ⟨rfl, rfl, fun _ => rfl⟩
    · intro hParts
      rcases hParts with ⟨rfl, rfl, _⟩
      rfl
  · constructor
    · intro h
      cases h
    · intro hParts
      rcases hParts with ⟨_, _, hClear⟩
      cases hClear rfl
  all_goals
    constructor
    · intro h
      cases h
      exact ⟨rfl, rfl, nofun⟩
    · intro hParts
      rcases hParts with ⟨rfl, rfl, _⟩
      rfl

theorem bump_some_iff
    {b : UInt8} :
    bump c = (.ok (some b), c') ↔ c.Reads [b] c' := by
  rcases c with ⟨_ | ⟨b', rest⟩, _ | message, position⟩
  · constructor
    · intro h
      cases h
    · intro h
      cases h.unread
  · constructor
    · intro h
      cases h
    · intro h
      cases h.unread
  all_goals
    constructor
    · intro h
      cases h
      exact ⟨rfl, rfl, rfl⟩
    · intro h
      rcases List.cons.inj h.unread with ⟨rfl, hRest⟩
      have hUnread : c'.unread = rest := hRest.symm
      rw [h.eq_mk, hUnread]
      rfl

/- The byte that comes next is the one that is read. -/
theorem bump_of_head?
    {b : UInt8}
    {next : Option UInt8}
    (hHead : c.unread.head? = some b)
    (h : bump c = (.ok next, c')) :
    c.Reads [b] c' := by
  rcases c with ⟨_ | ⟨b', rest⟩, fault, position⟩
  · cases hHead
  · cases hHead
    cases h
    exact ⟨rfl, rfl, rfl⟩

theorem malformed_ne_ok
    {α : Type}
    {message : String}
    {p : Position}
    {a : α} :
    malformed message p c ≠ (.ok a, c') := by
  intro h
  cases h

/- Taking bytes stops at the first one that fails the test. -/
theorem takeWhile_stop
    {test : UInt8 → Bool}
    {taken rest : List UInt8}
    (hTaken : ∀ b ∈ taken, test b = true)
    (hEnd : ∀ b, rest.head? = some b → test b = false) :
    (taken ++ rest).takeWhile test = taken ∧
      (taken ++ rest).dropWhile test = rest := by
  rw [List.takeWhile_append_of_pos hTaken,
    List.dropWhile_append_of_pos hTaken]
  cases rest with
  | nil => simp
  | cons b rest => simp [hEnd b rfl]

/- The bytes that satisfy a test, as many as there are. -/
theorem takeWhile_eq_ok_iff
    {test : UInt8 → Bool}
    {taken : List UInt8} :
    takeWhile test c = (.ok taken, c') ↔
      c.Reads taken c' ∧ (∀ b ∈ taken, test b = true) ∧
        (∀ b, c'.unread.head? = some b → test b = false) ∧
        c'.Clear := by
  unfold takeWhile
  constructor
  · intro h
    rcases Action.bind_eq_ok_iff.mp h with ⟨taken', c₁, hTake, h⟩
    cases hTake
    rcases Action.bind_eq_ok_iff.mp h with ⟨next, c₂, hPeek, h⟩
    rcases peek_eq_ok_iff.mp hPeek with ⟨rfl, _, hClear⟩
    cases h
    refine ⟨⟨?_, rfl, rfl⟩, ?_, ?_, hClear⟩
    · exact (List.takeWhile_append_dropWhile).symm
    · exact List.all_eq_true.mp List.all_takeWhile
    · intro b hHead
      have hNot := List.head?_dropWhile_not test c.unread
      rw [hHead] at hNot
      simpa using hNot
  · intro hParts
    rcases hParts with ⟨hReads, hTaken, hEnd, hClear⟩
    rcases takeWhile_stop hTaken hEnd with ⟨hTake, hDrop⟩
    rw [← hReads.unread] at hTake hDrop
    refine Action.bind_eq_ok_iff.mpr ⟨taken, c', ?_, ?_⟩
    · rw [hTake, hDrop, hReads.eq_mk]
    · exact Action.bind_eq_ok_iff.mpr
        ⟨_, c', peek_eq_ok_iff.mpr ⟨rfl, rfl, hClear⟩, rfl⟩

end Cursor

end TreeWire
