import TreeWire.Json.Parser
import TreeWire.Proofs.Source.Lexemes

/-
  Runs of the JSON parser on parts that hold no other value.

  `JsonCursor.Reads c used c'` says that a cursor has moved over
  the bytes `used`.  Blanks, words and strings are read exactly
  where the grammar has them: what the parser has read of a text
  is blanks, a word or a string of the grammar.

  Main statements:
    * `JsonParser.bind_eq_ok_iff`
    * `JsonParser.takeWhile_eq_ok_iff`
    * `JsonParser.blanks_eq_ok_iff`
    * `JsonParser.string_sound`
-/

namespace TreeWire

open Grammar

------------------------------------------------------------
-- Moving Over Bytes
------------------------------------------------------------

namespace JsonCursor

/- The line and the column behind a byte. -/
def placeAfter
    (place : Nat × Nat)
    (byte : UInt8) : Nat × Nat :=
  if byte = 0x0a then (place.1 + 1, 0)
  else (place.1, place.2 + 1)

/- A cursor has moved over bytes. -/
structure Reads
    (c : JsonCursor)
    (used : List UInt8)
    (c' : JsonCursor) : Prop where
  unread : c.unread = used ++ c'.unread
  place :
    (c'.line, c'.column) = used.foldl placeAfter (c.line, c.column)

namespace Reads

variable {c c₁ c' : JsonCursor}

theorem nil_iff :
    c.Reads [] c' ↔ c' = c := by
  constructor
  · intro hParts
    rcases hParts with ⟨hUnread, hPlace⟩
    cases c
    cases c'
    cases hUnread
    cases hPlace
    rfl
  · intro hEq
    subst hEq
    exact ⟨rfl, rfl⟩

theorem append
    {used more : List UInt8}
    (h : c.Reads used c₁)
    (hMore : c₁.Reads more c') :
    c.Reads (used ++ more) c' where
  unread := by
    rw [h.unread, hMore.unread, List.append_assoc]
  place := by
    rw [hMore.place, h.place, List.foldl_append]

/- Moving over bytes one part after the other. -/
theorem append_iff
    {used more : List UInt8} :
    c.Reads (used ++ more) c' ↔
      ∃ c₁, c.Reads used c₁ ∧ c₁.Reads more c' := by
  constructor
  · intro h
    let place := used.foldl placeAfter (c.line, c.column)
    refine ⟨⟨more ++ c'.unread, place.1, place.2⟩, ⟨?_, rfl⟩,
      rfl, ?_⟩
    · rw [h.unread, List.append_assoc]
    · rw [h.place, List.foldl_append]
  · intro hParts
    rcases hParts with ⟨c₁, h, hMore⟩
    exact h.append hMore

theorem cons_iff
    {b : UInt8}
    {used : List UInt8} :
    c.Reads (b :: used) c' ↔
      ∃ c₁, c.Reads [b] c₁ ∧ c₁.Reads used c' := by
  rw [← append_iff]
  rfl

theorem head?_unread
    {b : UInt8}
    {used : List UInt8}
    (h : c.Reads (b :: used) c') :
    c.unread.head? = some b := by
  rw [h.unread]
  rfl

end Reads

/- From a cursor on, any bytes ahead of it can be moved over. -/
theorem reads_all
    (bytes : List UInt8)
    (line column : Nat) :
    ∃ c', JsonCursor.Reads ⟨bytes, line, column⟩ bytes c' ∧
      c'.unread = [] := by
  let place := bytes.foldl placeAfter (line, column)
  exact ⟨⟨[], place.1, place.2⟩,
    ⟨(List.append_nil bytes).symm, rfl⟩, rfl⟩

end JsonCursor

namespace JsonParser

variable {c c' : JsonCursor}

------------------------------------------------------------
-- Single Steps
------------------------------------------------------------

/- A sequence succeeds exactly when both of its parts do. -/
theorem bind_eq_ok_iff
    {α β : Type}
    {p : JsonParser α}
    {f : α → JsonParser β}
    {b : β} :
    (p >>= f) c = .ok (b, c') ↔
      ∃ a c₁, p c = .ok (a, c₁) ∧ f a c₁ = .ok (b, c') := by
  change (p c >>= fun r => f r.1 r.2) = .ok (b, c') ↔ _
  rw [Action.except_bind_eq_ok_iff]
  constructor
  · intro hParts
    rcases hParts with ⟨⟨a, c₁⟩, hFirst, hRest⟩
    exact ⟨a, c₁, hFirst, hRest⟩
  · intro hParts
    rcases hParts with ⟨a, c₁, hFirst, hRest⟩
    exact ⟨(a, c₁), hFirst, hRest⟩

theorem bind_ok
    {α β : Type}
    {p : JsonParser α}
    {f : α → JsonParser β}
    {a : α}
    (h : p c = .ok (a, c')) :
    (p >>= f) c = f a c' := by
  change (p c >>= fun r => f r.1 r.2) = _
  rw [h]
  rfl

/- The second part of a sequence as a computation of its own. -/
theorem bind_ok_branch
    {α β : Type}
    {p : JsonParser α}
    {f : α → JsonParser β}
    {b : β}
    (h : (p >>= f) c = .ok (b, c')) :
    ∃ a c₁ branch,
      p c = .ok (a, c₁) ∧ f a = branch ∧
        branch c₁ = .ok (b, c') := by
  rcases bind_eq_ok_iff.mp h with ⟨a, c₁, hFirst, hRest⟩
  exact ⟨a, c₁, f a, hFirst, rfl, hRest⟩

theorem fail_ne_ok
    {α : Type}
    {fault : JsonFault}
    {r : α × JsonCursor} :
    fail fault c ≠ .ok r := by
  intro h
  cases h

theorem next_none_iff :
    next c = .ok (none, c') ↔ c.unread = [] ∧ c' = c := by
  rcases c with ⟨unread, line, column⟩
  cases unread with
  | nil =>
      simp only [next, Except.ok.injEq, Prod.mk.injEq, true_and]
      exact eq_comm
  | cons b rest =>
      simp only [next]
      split <;> simp

/- One byte is read wherever there is one. -/
theorem next_some_iff
    {b : UInt8} :
    next c = .ok (some b, c') ↔ c.Reads [b] c' := by
  rcases c with ⟨unread, line, column⟩
  rcases c' with ⟨unread', line', column'⟩
  have hReads :
      JsonCursor.Reads ⟨unread, line, column⟩ [b]
          ⟨unread', line', column'⟩ ↔
        unread = b :: unread' ∧
          (line', column') =
            JsonCursor.placeAfter (line, column) b :=
    ⟨fun h => ⟨h.unread, h.place⟩, fun h => ⟨h.1, h.2⟩⟩
  rw [hReads]
  cases unread with
  | nil => simp [next]
  | cons first rest =>
      by_cases hLine : first = 0x0a
      · simp only [next, if_pos hLine, JsonCursor.placeAfter]
        grind
      · simp only [next, if_neg hLine, JsonCursor.placeAfter]
        grind

theorem failNext_ne_ok
    {α : Type}
    {fault : JsonFault}
    {r : α × JsonCursor} :
    failNext fault c ≠ .ok r := by
  intro h
  rcases bind_eq_ok_iff.mp h with ⟨_, _, _, h⟩
  exact fail_ne_ok h

theorem peek_eq_ok_iff
    {o : Option UInt8} :
    peek c = .ok (o, c') ↔ o = c.unread.head? ∧ c' = c := by
  simp only [peek, Except.ok.injEq, Prod.mk.injEq]
  constructor
  · intro hParts
    rcases hParts with ⟨rfl, rfl⟩
    exact ⟨rfl, rfl⟩
  · intro hParts
    rcases hParts with ⟨rfl, rfl⟩
    exact ⟨rfl, rfl⟩

/- Bytes that are ahead are read one by one. -/
theorem skip_eq_ok_iff
    {bytes rest : List UInt8}
    (hAhead : c.unread = bytes ++ rest) :
    skip bytes c = .ok ((), c') ↔ c.Reads bytes c' := by
  induction bytes generalizing c with
  | nil =>
      rw [JsonCursor.Reads.nil_iff]
      constructor
      · intro h
        cases h
        rfl
      · intro h
        cases h
        rfl
  | cons b bytes ih =>
      rw [skip, bind_eq_ok_iff, JsonCursor.Reads.cons_iff]
      constructor
      · intro hParts
        rcases hParts with ⟨o, c₁, hNext, hRest⟩
        cases o with
        | none =>
            rw [(next_none_iff.mp hNext).1] at hAhead
            cases hAhead
        | some first =>
            have hFirst := next_some_iff.mp hNext
            have hUnread := hFirst.unread
            rw [hAhead] at hUnread
            rcases List.cons.inj hUnread with ⟨rfl, hTail⟩
            exact ⟨c₁, hFirst, (ih hTail.symm).mp hRest⟩
      · intro hParts
        rcases hParts with ⟨c₁, hFirst, hRest⟩
        have hUnread := hFirst.unread
        rw [hAhead] at hUnread
        have hTail := (List.cons.inj hUnread).2
        exact ⟨_, c₁, next_some_iff.mpr hFirst,
          (ih hTail.symm).mpr hRest⟩

/- Bytes that satisfy a test are read as far as they go. -/
theorem takeWhile_eq_ok_iff
    {test : UInt8 → Bool}
    {taken : List UInt8} :
    takeWhile test c = .ok (taken, c') ↔
      c.Reads taken c' ∧ (∀ b ∈ taken, test b = true) ∧
        ∀ b, c'.unread.head? = some b → test b = false := by
  have hRun :
      takeWhile test c = .ok (taken, c') ↔
        taken = c.unread.takeWhile test ∧
          skip taken c = .ok ((), c') := by
    unfold takeWhile
    rw [bind_eq_ok_iff]
    constructor
    · intro hParts
      rcases hParts with ⟨_, _, hGet, h⟩
      cases hGet
      rcases bind_eq_ok_iff.mp h with ⟨_, _, hSkip, hPure⟩
      cases hPure
      exact ⟨rfl, hSkip⟩
    · intro hParts
      rcases hParts with ⟨rfl, hSkip⟩
      exact ⟨c, c, rfl,
        bind_eq_ok_iff.mpr ⟨(), c', hSkip, rfl⟩⟩
  rw [hRun]
  constructor
  · intro hParts
    rcases hParts with ⟨rfl, hSkip⟩
    have hSplit := List.takeWhile_append_dropWhile
      (p := test) (l := c.unread)
    have hReads := (skip_eq_ok_iff hSplit.symm).mp hSkip
    have hRest : c.unread.dropWhile test = c'.unread :=
      List.append_cancel_left (hSplit.trans hReads.unread)
    refine ⟨hReads, List.all_eq_true.mp List.all_takeWhile, ?_⟩
    intro b hHead
    have hNot := List.head?_dropWhile_not test c.unread
    rw [hRest, hHead] at hNot
    simpa using hNot
  · intro hParts
    rcases hParts with ⟨hReads, hTaken, hEnd⟩
    have hTake := (Cursor.takeWhile_stop hTaken hEnd).1
    rw [← hReads.unread] at hTake
    exact ⟨hTake.symm, (skip_eq_ok_iff hReads.unread).mpr hReads⟩

/- A byte that is known to come next is the one that is read. -/
theorem next_of_head?
    {b : UInt8}
    {o : Option UInt8}
    (hHead : c.unread.head? = some b)
    (h : next c = .ok (o, c')) :
    c.Reads [b] c' := by
  cases o with
  | none =>
      rw [(next_none_iff.mp h).1] at hHead
      cases hHead
  | some first =>
      have hReads := next_some_iff.mp h
      rw [hReads.head?_unread] at hHead
      cases hHead
      exact hReads

------------------------------------------------------------
-- Blanks and Words
------------------------------------------------------------

/- Blanks are read as far as they go. -/
theorem blanks_eq_ok_iff
    {o : Option UInt8} :
    blanks c = .ok (o, c') ↔
      ∃ used,
        c.Reads used c' ∧ Blanks used ∧ o = c'.unread.head? ∧
          ∀ b, o = some b → Lexeme.isBlankByte b = false := by
  unfold blanks
  rw [bind_eq_ok_iff]
  constructor
  · intro hParts
    rcases hParts with ⟨used, c₁, hTake, hPeek⟩
    rcases peek_eq_ok_iff.mp hPeek with ⟨rfl, rfl⟩
    rcases takeWhile_eq_ok_iff.mp hTake with ⟨hReads, hAll, hEnd⟩
    exact ⟨used, hReads,
      fun b hMem => Lexeme.isBlankByte_iff.mp (hAll b hMem), rfl,
      hEnd⟩
  · intro hParts
    rcases hParts with ⟨used, hReads, hBlanks, rfl, hEnd⟩
    refine ⟨used, c', takeWhile_eq_ok_iff.mpr ⟨hReads, ?_, hEnd⟩,
      peek_eq_ok_iff.mpr ⟨rfl, rfl⟩⟩
    exact fun b hMem => Lexeme.isBlankByte_iff.mpr (hBlanks b hMem)

/- Blanks are read, and the byte after them says what follows. -/
theorem blanks_branch
    {α : Type}
    {rest : Option UInt8 → JsonParser α}
    {a : α}
    (h : (blanks >>= rest) c = .ok (a, c')) :
    ∃ used c₁ o branch,
      c.Reads used c₁ ∧ Blanks used ∧ c₁.unread.head? = o ∧
        rest o = branch ∧ branch c₁ = .ok (a, c') := by
  rcases bind_ok_branch h with ⟨o, c₁, branch, hBlanks, hBranch, hRest⟩
  rcases blanks_eq_ok_iff.mp hBlanks with ⟨used, hReads, hAll, hHead, _⟩
  exact ⟨used, c₁, o, branch, hReads, hAll, hHead.symm, hBranch, hRest⟩

/- A byte that was looked at is the one that is read. -/
theorem next_then
    {α : Type}
    {b : UInt8}
    {rest : JsonParser α}
    {a : α}
    (hHead : c.unread.head? = some b)
    (h : (next >>= fun _ => rest) c = .ok (a, c')) :
    ∃ c₁, c.Reads [b] c₁ ∧ rest c₁ = .ok (a, c') := by
  rcases bind_eq_ok_iff.mp h with ⟨_, c₁, hNext, hRest⟩
  exact ⟨c₁, next_of_head? hHead hNext, hRest⟩

/- A parser that needs a byte reads one and goes on. -/
theorem next_needed
    {α : Type}
    {fault : JsonFault}
    {rest : UInt8 → JsonParser α}
    {a : α}
    (h :
      (do
        match ← next with
        | none => fail fault
        | some byte => rest byte : JsonParser α) c = .ok (a, c')) :
    ∃ byte c₁, c.Reads [byte] c₁ ∧ rest byte c₁ = .ok (a, c') := by
  rcases bind_ok_branch h with ⟨o, c₁, branch, hNext, hBranch, hRest⟩
  cases o with
  | none =>
      subst hBranch
      exact absurd hRest fail_ne_ok
  | some byte =>
      subst hBranch
      exact ⟨byte, c₁, next_some_iff.mp hNext, hRest⟩

/- A parser that needs a certain byte goes on from after it. -/
theorem next_expected
    {α : Type}
    {atEnd atOther : JsonFault}
    {expected : UInt8}
    {rest : JsonParser α}
    {a : α}
    (h :
      (do
        match ← next with
        | none => fail atEnd
        | some byte =>
            if byte = expected then rest else fail atOther :
          JsonParser α) c = .ok (a, c')) :
    ∃ c₁, c.Reads [expected] c₁ ∧ rest c₁ = .ok (a, c') := by
  rcases next_needed h with ⟨byte, c₁, hByte, hRest⟩
  split at hRest
  · rename_i hExpected
    subst hExpected
    exact ⟨c₁, hByte, hRest⟩
  · exact absurd hRest fail_ne_ok

/- What is read as a word is that word. -/
theorem word_sound
    {bytes : List UInt8}
    (h : word bytes c = .ok ((), c')) :
    c.Reads bytes c' := by
  induction bytes generalizing c with
  | nil =>
      cases h
      exact JsonCursor.Reads.nil_iff.mpr rfl
  | cons expected rest ih =>
      rw [word] at h
      rcases next_expected h with ⟨c₁, hByte, hRest⟩
      exact hByte.append (ih hRest)

------------------------------------------------------------
-- Escapes
------------------------------------------------------------

/- Four bytes that all have a value are four digits. -/
theorem hexFour_of_mapM
    {four : List UInt8}
    {ds : List Nat}
    (hLength : four.length = 4)
    (hDigits : four.mapM Lexeme.hexValue? = some ds) :
    HexFour four (ds.foldl (fun n d => 16 * n + d) 0) := by
  match four, hLength with
  | [a, b, c, d], _ =>
      simp only [List.mapM_cons, List.mapM_nil, Option.bind_eq_bind,
        Option.bind_eq_some_iff, Option.pure_def,
        Option.some.injEq] at hDigits
      rcases hDigits with
        ⟨w, ha, _, ⟨x, hb, _, ⟨y, hc, _, ⟨z, hd, _, rfl, rfl⟩, rfl⟩,
          rfl⟩, rfl⟩
      simp only [List.foldl_cons, List.foldl_nil, Nat.mul_zero,
        Nat.zero_add]
      exact .mk (Lexeme.hexValue?_eq_some_iff.mp ha)
        (Lexeme.hexValue?_eq_some_iff.mp hb)
        (Lexeme.hexValue?_eq_some_iff.mp hc)
        (Lexeme.hexValue?_eq_some_iff.mp hd)

/- What is read as four digits is four digits. -/
theorem hexFour_sound
    {n : Nat}
    (h : hexFour c = .ok (n, c')) :
    ∃ ds, c.Reads ds c' ∧ HexFour ds n := by
  unfold hexFour at h
  rcases bind_eq_ok_iff.mp h with ⟨_, _, hGet, h⟩
  cases hGet
  rcases bind_ok_branch h with ⟨_, c₁, branch, hSkip, hBranch, h⟩
  have hReads :=
    (skip_eq_ok_iff (List.take_append_drop 4 c.unread).symm).mp hSkip
  have hMost : (c.unread.take 4).length ≤ 4 :=
    List.length_take_le 4 c.unread
  generalize c.unread.take 4 = four at hReads hBranch hMost
  split at hBranch
  · subst hBranch
    exact absurd h fail_ne_ok
  · split at hBranch
    · rename_i hLength ds hDigits
      subst hBranch
      cases h
      exact ⟨four, hReads, hexFour_of_mapM (by omega) hDigits⟩
    · subst hBranch
      exact absurd h fail_ne_ok

/- A byte that an escape needs is the one that is read. -/
theorem expectInEscape_sound
    {expected : UInt8}
    (h : expectInEscape expected c = .ok ((), c')) :
    c.Reads [expected] c' := by
  rw [expectInEscape] at h
  rcases next_expected h with ⟨c₁, hByte, hRest⟩
  cases hRest
  exact hByte

/- A code point, after its letter. -/
theorem unicodeEscape_sound
    {ch : Char}
    (h : unicodeEscape c = .ok (ch, c')) :
    ∃ bytes,
      c.Reads bytes c' ∧ Escape (0x5c :: 0x75 :: bytes) ch := by
  rcases bind_ok_branch h with
    ⟨first, c₁, branch, hFirst, hBranch, h⟩
  rcases hexFour_sound hFirst with ⟨ds, hReads, hFour⟩
  split at hBranch
  · subst hBranch
    exact absurd h fail_ne_ok
  · rename_i hNotLow
    split at hBranch
    · rename_i hHigh
      subst hBranch
      rcases bind_eq_ok_iff.mp h with ⟨_, c₂, hSlash, h⟩
      rcases bind_eq_ok_iff.mp h with ⟨_, c₃, hLetter, h⟩
      rcases bind_ok_branch h with
        ⟨low, c₄, branch, hLow, hBranch, h⟩
      rcases hexFour_sound hLow with ⟨es, hReads', hFour'⟩
      have hMarks :=
        (expectInEscape_sound hSlash).append
          ((expectInEscape_sound hLetter).append hReads')
      split at hBranch
      · rename_i hRange
        subst hBranch
        rcases Prod.mk.inj (Except.ok.inj h) with ⟨rfl, rfl⟩
        exact ⟨_, hReads.append hMarks,
          .pair hFour hFour' hHigh hRange⟩
      · subst hBranch
        exact absurd h fail_ne_ok
    · subst hBranch
      cases h
      exact ⟨ds, hReads, .point hFour (by omega)⟩

/- An escape, after its backslash. -/
theorem escape_sound
    {ch : Char}
    (h : escape c = .ok (ch, c')) :
    ∃ bytes, c.Reads bytes c' ∧ Escape (0x5c :: bytes) ch := by
  have hLetter :
      ∀ {b : UInt8} {c₁ : JsonCursor} {ch' : Char},
        next c = .ok (some b, c₁) →
        (b, ch') ∈ escapes →
        (pure ch' : JsonParser Char) c₁ = .ok (ch, c') →
        ∃ bytes,
          c.Reads bytes c' ∧ Escape (0x5c :: bytes) ch := by
    intro b c₁ ch' hNext hMem hPure
    cases hPure
    exact ⟨[b], next_some_iff.mp hNext, .letter hMem⟩
  unfold escape at h
  rcases bind_ok_branch h with ⟨o, c₁, branch, hNext, hBranch, h⟩
  split at hBranch
  case h_1 =>
    subst hBranch
    exact absurd h fail_ne_ok
  case h_10 =>
    subst hBranch
    rcases unicodeEscape_sound h with ⟨bytes, hReads, hEscape⟩
    exact ⟨0x75 :: bytes,
      (next_some_iff.mp hNext).append hReads, hEscape⟩
  case h_11 =>
    subst hBranch
    exact absurd h fail_ne_ok
  all_goals
    subst hBranch
    exact hLetter hNext (by decide) h

------------------------------------------------------------
-- Strings
------------------------------------------------------------

/-
  The rest of a string.  The induction is on the rounds, each
  of which reads the closing mark, an escape or one plain byte.
-/
theorem stringBytes_sound
    {rounds done bytes : List UInt8}
    (h : stringBytes done rounds c = .ok (bytes, c')) :
    ∃ inner out,
      c.Reads (inner ++ [0x22]) c' ∧ Contents inner out ∧
        bytes = done.reverse ++ out := by
  induction rounds generalizing c done with
  | nil => exact absurd h fail_ne_ok
  | cons _ rounds ih =>
      rw [stringBytes] at h
      rcases next_needed h with ⟨byte, c₁, hByte, h⟩
      split at h
      · rename_i hQuote
        subst hQuote
        cases h
        exact ⟨[], [], hByte, .nil, by simp⟩
      · rename_i hQuote
        split at h
        · rename_i hSlash
          subst hSlash
          rcases bind_eq_ok_iff.mp h with ⟨ch, c₂, hEscape, h⟩
          rcases escape_sound hEscape with ⟨escaped, hReads, hEscape⟩
          rcases ih h with ⟨inner, out, hRest, hContents, rfl⟩
          refine ⟨_, _, ?_, .escape hEscape hContents, ?_⟩
          · rw [List.append_assoc]
            exact (hByte.append hReads).append hRest
          · simp
        · rename_i hSlash
          split at h
          · exact absurd h fail_ne_ok
          · rename_i hControl
            rcases ih h with ⟨inner, out, hRest, hContents, rfl⟩
            refine ⟨byte :: inner, byte :: out, hByte.append hRest, ?_,
              by simp⟩
            exact .byte hQuote hSlash (UInt8.not_lt.mp hControl)
              hContents

/- What is read as a string is a string with that text. -/
theorem string_sound
    {text : String}
    (hHead : c.unread.head? = some 0x22)
    (h : string c = .ok (text, c')) :
    ∃ used, c.Reads used c' ∧ Quoted used text := by
  rcases next_then hHead h with ⟨c₁, hOpen, h⟩
  rcases bind_eq_ok_iff.mp h with ⟨_, _, hGet, h⟩
  cases hGet
  rcases bind_ok_branch h with
    ⟨bytes, c₂, branch, hBytes, hBranch, h⟩
  rcases stringBytes_sound hBytes with
    ⟨inner, out, hReads, hContents, hOut⟩
  rw [List.reverse_nil, List.nil_append] at hOut
  subst hOut
  split at hBranch
  · rename_i text' hText
    subst hBranch
    cases h
    rw [utf8Text?_eq_some_iff.mp hText] at hContents
    exact ⟨_, hOpen.append hReads,
      .mk hContents.letters⟩
  · subst hBranch
    exact absurd h fail_ne_ok

end JsonParser

end TreeWire
