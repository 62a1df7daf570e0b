import TreeWire.Proofs.Json.Tokens
import TreeWire.Proofs.Source.Automaton
import TreeWire.Proofs.Source.Delivery
import TreeWire.Proofs.Source.Lexemes

/-
  The scanner against the automaton of the grammar.

  Each step of a scanner that succeeds is an advance of the
  automaton over the bytes read, or the end after a document.
  Every advance is a step, if a container that opens is not
  too deep and no number goes on after the bytes.

  Main statements:
    * `Scanner.token_sound`
    * `Scanner.token_complete`
-/

namespace TreeWire

open Grammar

/- The token that starts a value, and the point after it. -/
inductive ValueStart
    (frames : List Frame) :
    List UInt8 → Token → Point → Prop where
  | scalar
      {bytes : List UInt8}
      {lit : Literal}
      (hScalar : Scalar bytes lit) :
      ValueStart frames bytes (.literal lit) (.after frames)
  | openArray :
      ValueStart frames [0x5b] .arrayOpen
        ⟨.firstElement, .array :: frames⟩
  | openObject :
      ValueStart frames [0x7b] .objectOpen
        ⟨.firstKey, .object :: frames⟩

theorem ValueStart.advance
    {p p' : Point}
    {lead bytes : List UInt8}
    {t : Token}
    (h : ValueStart p.frames bytes t p')
    (hLead : ValueLead p.stage lead) :
    Advance p (lead ++ bytes) t p' := by
  cases h with
  | scalar hScalar => exact .scalar hLead hScalar
  | openArray => exact .openArray hLead
  | openObject => exact .openObject hLead

namespace Scanner

variable {s s' : Scanner}

------------------------------------------------------------
-- Small Steps
------------------------------------------------------------

/- The point of the grammar at which a scanner stands. -/
def point
    (s : Scanner) : Point :=
  ⟨s.stage, s.frames⟩

/- A scanner with the same limit at another point. -/
def moved
    (s : Scanner)
    (cursor : Cursor)
    (p : Point) : Scanner :=
  ⟨cursor, p.frames, p.stage, s.maxDepth⟩

theorem lex_eq_ok_iff
    {α : Type}
    {action : Lexing α}
    {a : α} :
    lex action s = (.ok a, s') ↔
      ∃ c, action s.cursor = (.ok a, c) ∧
        s' = s.moved c s.point := by
  unfold lex
  rcases hAction : action s.cursor with ⟨result, c⟩
  constructor
  · intro h
    cases h
    exact ⟨c, rfl, rfl⟩
  · intro hParts
    rcases hParts with ⟨c', hOk, rfl⟩
    cases hOk
    rfl

theorem malformed_ne_ok
    {α : Type}
    {message : String}
    {a : α} :
    malformed message s ≠ (.ok a, s') := by
  intro h
  cases h

theorem openContainer_eq_ok_iff
    {frame : Frame}
    {stage : Stage} :
    openContainer frame stage s = (.ok (), s') ↔
      s.frames.length < s.maxDepth ∧
        ∃ next c,
          Cursor.bump s.cursor = (.ok next, c) ∧
            s' = s.moved c ⟨stage, frame :: s.frames⟩ := by
  unfold openContainer
  constructor
  · intro h
    rcases Action.bind_ok_branch h with
      ⟨s₁, s₂, branch, hGet, hBranch, h⟩
    cases hGet
    split at hBranch
    · subst hBranch
      exact absurd h malformed_ne_ok
    · rename_i hDepth
      subst hBranch
      rcases Action.bind_eq_ok_iff.mp h with ⟨next, s₃, hLex, h⟩
      rcases lex_eq_ok_iff.mp hLex with ⟨c, hBump, rfl⟩
      cases h
      exact ⟨Nat.lt_of_not_le hDepth, next, c, hBump, rfl⟩
  · intro hParts
    rcases hParts with ⟨hDepth, next, c, hBump, rfl⟩
    refine Action.bind_eq_ok_iff.mpr ⟨s, s, rfl, ?_⟩
    rw [if_neg (Nat.not_le_of_lt hDepth)]
    exact Action.bind_eq_ok_iff.mpr
      ⟨next, _, lex_eq_ok_iff.mpr ⟨c, hBump, rfl⟩, rfl⟩

/- No container opens beyond the limit. -/
theorem openContainer_tooDeep
    (frame : Frame)
    (stage : Stage)
    (hDepth : s.maxDepth ≤ s.frames.length) :
    openContainer frame stage s =
      (.error (.here
        (.malformed (depthMessage s.maxDepth)
          (some s.cursor.position))), s) := by
  have hGet : (get : Scanning Scanner) s = (.ok s, s) := rfl
  unfold openContainer
  rw [Action.bind_ok hGet, if_pos hDepth]
  rfl

theorem literal_eq_ok_iff
    {lexeme : Lexing Literal}
    {t : Token} :
    literal lexeme s = (.ok t, s') ↔
      ∃ lit c,
        lexeme s.cursor = (.ok lit, c) ∧ t = .literal lit ∧
          s' = s.moved c (.after s.frames) := by
  unfold literal
  constructor
  · intro h
    rcases Action.bind_eq_ok_iff.mp h with ⟨lit, s₁, hLex, h⟩
    rcases lex_eq_ok_iff.mp hLex with ⟨c, hLexeme, rfl⟩
    cases h
    exact ⟨lit, c, hLexeme, rfl, rfl⟩
  · intro hParts
    rcases hParts with ⟨lit, c, hLexeme, rfl, rfl⟩
    exact Action.bind_eq_ok_iff.mpr
      ⟨lit, _, lex_eq_ok_iff.mpr ⟨c, hLexeme, rfl⟩, rfl⟩

theorem closeContainer_eq_ok_iff
    {mark t : Token} :
    closeContainer mark s = (.ok t, s') ↔
      ∃ next c,
        Cursor.bump s.cursor = (.ok next, c) ∧ t = mark ∧
          s' = s.moved c (.after s.frames.tail) := by
  unfold closeContainer
  constructor
  · intro h
    rcases Action.bind_eq_ok_iff.mp h with ⟨next, s₁, hLex, h⟩
    rcases lex_eq_ok_iff.mp hLex with ⟨c, hBump, rfl⟩
    cases h
    exact ⟨next, c, hBump, rfl, rfl⟩
  · intro hParts
    rcases hParts with ⟨next, c, hBump, rfl, rfl⟩
    exact Action.bind_eq_ok_iff.mpr
      ⟨next, _, lex_eq_ok_iff.mpr ⟨c, hBump, rfl⟩, rfl⟩

------------------------------------------------------------
-- Values
------------------------------------------------------------

/- A scanner has read the token that starts a value. -/
def StartsValue
    (s : Scanner)
    (t : Token)
    (s' : Scanner) : Prop :=
  ∃ bytes p,
    s.cursor.Reads bytes s'.cursor ∧
      ValueStart s.frames bytes t p ∧
      s' = s.moved s'.cursor p ∧
      (t.opens = true → s.frames.length < s.maxDepth)

theorem literal_startsValue
    {lexeme : Lexing Literal}
    {t : Token}
    (hLexeme :
      ∀ {lit c},
        lexeme s.cursor = (.ok lit, c) →
        ∃ bytes, s.cursor.Reads bytes c ∧ Scalar bytes lit)
    (h : literal lexeme s = (.ok t, s')) :
    StartsValue s t s' := by
  rcases literal_eq_ok_iff.mp h with ⟨lit, c, hLit, rfl, rfl⟩
  rcases hLexeme hLit with ⟨bytes, hReads, hScalar⟩
  exact ⟨bytes, _, hReads, .scalar hScalar, rfl, nofun⟩

theorem word_startsValue
    {text : String}
    {kind : LiteralKind}
    {t : Token}
    (hMem : (text, kind) ∈ words)
    (h : literal (Lexeme.word text kind) s = (.ok t, s')) :
    StartsValue s t s' := by
  apply literal_startsValue _ h
  intro lit c hLit
  rcases Lexeme.word_eq_ok_iff.mp hLit with ⟨rfl, hReads⟩
  exact ⟨_, hReads, .word hMem⟩

theorem open_startsValue
    {frame : Frame}
    {stage : Stage}
    {mark t : Token}
    {b : UInt8}
    (hHead : s.cursor.unread.head? = some b)
    (hStart :
      ValueStart s.frames [b] mark ⟨stage, frame :: s.frames⟩)
    (h :
      (do
        openContainer frame stage
        pure mark : Scanning Token) s = (.ok t, s')) :
    StartsValue s t s' := by
  rcases Action.bind_eq_ok_iff.mp h with ⟨_, s₁, hOpen, h⟩
  cases h
  rcases openContainer_eq_ok_iff.mp hOpen with
    ⟨hDepth, next, c, hBump, rfl⟩
  exact ⟨[b], _, Cursor.bump_of_head? hHead hBump, hStart, rfl,
    fun _ => hDepth⟩

/- A step that reads a value reads the start of one. -/
theorem value_sound
    {t : Token}
    (h : value s = (.ok t, s')) :
    StartsValue s t s' := by
  unfold value at h
  rcases Action.bind_ok_branch h with
    ⟨next, s₁, branch, hLex, hBranch, h⟩
  rcases lex_eq_ok_iff.mp hLex with ⟨c, hPeek, rfl⟩
  rcases Cursor.peek_eq_ok_iff.mp hPeek with ⟨rfl, hHead, _⟩
  split at hBranch
  · subst hBranch
    exact open_startsValue hHead.symm .openObject h
  · subst hBranch
    exact open_startsValue hHead.symm .openArray h
  · subst hBranch
    apply literal_startsValue _ h
    intro lit c hLit
    rcases Action.bind_eq_ok_iff.mp hLit with
      ⟨text, c₁, hString, hLit⟩
    cases hLit
    rcases (Lexeme.string_eq_ok_iff hHead.symm).mp hString with
      ⟨used, hReads, hQuoted⟩
    exact ⟨used, hReads, .string hQuoted⟩
  · subst hBranch
    exact word_startsValue (by decide) h
  · subst hBranch
    exact word_startsValue (by decide) h
  · subst hBranch
    exact word_startsValue (by decide) h
  · split at hBranch
    · subst hBranch
      apply literal_startsValue _ h
      intro lit c hLit
      rcases Lexeme.number_sound hLit with
        ⟨used, hReads, rfl, hNumber⟩
      exact ⟨_, hReads, .number hNumber⟩
    · subst hBranch
      exact absurd h malformed_ne_ok
  · subst hBranch
    exact absurd h malformed_ne_ok

/- The bytes with which a number can start. -/
def numberStarts : List UInt8 :=
  [0x2d, 0x30, 0x31, 0x32, 0x33, 0x34, 0x35, 0x36, 0x37, 0x38,
    0x39]

theorem digit_mem_numberStarts
    {b : UInt8}
    (h : 0x30 ≤ b ∧ b ≤ 0x39) :
    b ∈ numberStarts := by
  have hAll :
      ∀ n < 0x3a, 0x30 ≤ n → UInt8.ofNat n ∈ numberStarts := by
    decide
  rw [UInt8.le_iff_toNat_le, UInt8.le_iff_toNat_le] at h
  rw [← UInt8.ofNat_toNat (x := b)]
  exact hAll b.toNat (Nat.lt_succ_of_le h.2) h.1

theorem number_head
    {bytes : List UInt8}
    {kind : LiteralKind}
    (h : Number bytes kind) :
    ∃ b rest, bytes = b :: rest ∧ b ∈ numberStarts := by
  cases h with
  | @mk _ whole _ _ hSign hWhole _ _ =>
      rcases hSign with rfl | rfl
      · cases hWhole with
        | zero => exact ⟨_, _, rfl, by decide⟩
        | digits hDigits _ =>
            cases whole with
            | nil => exact absurd rfl hDigits.1
            | cons d ds =>
                exact ⟨d, _, rfl,
                  digit_mem_numberStarts (hDigits.2 d (by simp))⟩
      · exact ⟨_, _, rfl, by decide⟩

/- Looking at the byte that comes next. -/
theorem lex_peek
    (hClear : s.cursor.Clear) :
    lex Cursor.peek s = (.ok s.cursor.unread.head?, s) :=
  lex_eq_ok_iff.mpr
    ⟨s.cursor, Cursor.peek_eq_ok_iff.mpr ⟨rfl, rfl, hClear⟩, rfl⟩

theorem value_word
    {text : String}
    {kind : LiteralKind}
    {c : Cursor}
    (hMem : (text, kind) ∈ words)
    (hReads : s.cursor.Reads (utf8 text.toList) c) :
    value s =
      (.ok (.literal ⟨kind, text⟩), s.moved c (.after s.frames)) := by
  have hLit :
      literal (Lexeme.word text kind) s =
        (.ok (.literal ⟨kind, text⟩),
          s.moved c (.after s.frames)) :=
    literal_eq_ok_iff.mpr
      ⟨_, c, Lexeme.word_eq_ok_iff.mpr ⟨rfl, hReads⟩, rfl, rfl⟩
  have hWords :
      utf8 "true".toList = [0x74, 0x72, 0x75, 0x65] ∧
        utf8 "false".toList = [0x66, 0x61, 0x6c, 0x73, 0x65] ∧
        utf8 "null".toList = [0x6e, 0x75, 0x6c, 0x6c] := by
    decide
  unfold value
  simp only [words, List.mem_cons, Prod.mk.injEq,
    List.not_mem_nil, or_false] at hMem
  rcases hMem with ⟨rfl, rfl⟩ | ⟨rfl, rfl⟩ | ⟨rfl, rfl⟩
  · rw [hWords.1] at hReads
    rw [Action.bind_ok (lex_peek hReads.clear_of_cons),
      hReads.head?_unread]
    exact hLit
  · rw [hWords.2.1] at hReads
    rw [Action.bind_ok (lex_peek hReads.clear_of_cons),
      hReads.head?_unread]
    exact hLit
  · rw [hWords.2.2] at hReads
    rw [Action.bind_ok (lex_peek hReads.clear_of_cons),
      hReads.head?_unread]
    exact hLit

theorem value_number
    {text : String}
    {kind : LiteralKind}
    {c : Cursor}
    (hNumber : Number (utf8 text.toList) kind)
    (hReads : s.cursor.Reads (utf8 text.toList) c)
    (hEnd : Lexeme.NumberEnds c.unread)
    (hClear : c.Clear) :
    value s =
      (.ok (.literal ⟨kind, text⟩), s.moved c (.after s.frames)) := by
  have hLit :
      literal Lexeme.number s =
        (.ok (.literal ⟨kind, text⟩),
          s.moved c (.after s.frames)) :=
    literal_eq_ok_iff.mpr
      ⟨⟨kind, text⟩, c,
        Lexeme.number_complete hReads hNumber hEnd hClear, rfl, rfl⟩
  unfold value
  rw [Action.bind_ok (lex_peek (hReads.clear hClear))]
  rcases number_head hNumber with ⟨b, rest, hBytes, hMem⟩
  rw [hBytes] at hReads
  rw [hReads.head?_unread]
  simp only [numberStarts, List.mem_cons, List.not_mem_nil,
    or_false] at hMem
  rcases hMem with rfl | rfl | rfl | rfl | rfl | rfl | rfl | rfl |
    rfl | rfl | rfl <;>
    exact hLit

theorem value_string
    {bytes : List UInt8}
    {text : String}
    {c : Cursor}
    (hQuoted : Quoted bytes text)
    (hReads : s.cursor.Reads bytes c) :
    value s =
      (.ok (.literal ⟨.string, text⟩),
        s.moved c (.after s.frames)) := by
  have hHead : s.cursor.unread.head? = some 0x22 := by
    cases hQuoted with
    | mk _ => exact hReads.head?_unread
  have hClear : s.cursor.Clear := by
    cases hQuoted with
    | mk _ => exact hReads.clear_of_cons
  unfold value
  rw [Action.bind_ok (lex_peek hClear), hHead]
  refine literal_eq_ok_iff.mpr ⟨⟨.string, text⟩, c, ?_, rfl, rfl⟩
  exact Action.bind_eq_ok_iff.mpr ⟨text, c,
    (Lexeme.string_eq_ok_iff hHead).mpr ⟨bytes, hReads, hQuoted⟩,
    rfl⟩

theorem value_open
    {frame : Frame}
    {stage : Stage}
    {mark : Token}
    {b : UInt8}
    {c : Cursor}
    (hReads : s.cursor.Reads [b] c)
    (hDepth : s.frames.length < s.maxDepth) :
    (do
        openContainer frame stage
        pure mark : Scanning Token) s =
      (.ok mark, s.moved c ⟨stage, frame :: s.frames⟩) :=
  Action.bind_eq_ok_iff.mpr ⟨(), _,
    openContainer_eq_ok_iff.mpr
      ⟨hDepth, _, c, Cursor.bump_some_iff.mpr hReads, rfl⟩, rfl⟩

/- The start of a value is read as such. -/
theorem value_complete
    {bytes : List UInt8}
    {t : Token}
    {p : Point}
    {c : Cursor}
    (hStart : ValueStart s.frames bytes t p)
    (hReads : s.cursor.Reads bytes c)
    (hDepth : t.opens = true → s.frames.length < s.maxDepth)
    (hEnd :
      t.opens = false → Lexeme.NumberEnds c.unread ∧ c.Clear) :
    value s = (.ok t, s.moved c p) := by
  cases hStart with
  | scalar hScalar =>
      cases hScalar with
      | word hMem => exact value_word hMem hReads
      | number hNumber =>
          exact value_number hNumber hReads (hEnd rfl).1
            (hEnd rfl).2
      | string hQuoted => exact value_string hQuoted hReads
  | openArray =>
      unfold value
      rw [Action.bind_ok (lex_peek hReads.clear_of_cons),
        hReads.head?_unread]
      exact value_open hReads (hDepth rfl)
  | openObject =>
      unfold value
      rw [Action.bind_ok (lex_peek hReads.clear_of_cons),
        hReads.head?_unread]
      exact value_open hReads (hDepth rfl)

------------------------------------------------------------
-- Keys
------------------------------------------------------------

/- A step that reads a key reads the colon after it, too. -/
theorem key_sound
    {t : Token}
    (h : key s.cursor.unread.head? s = (.ok t, s')) :
    ∃ quoted blanks name,
      s.cursor.Reads (quoted ++ blanks ++ [0x3a]) s'.cursor ∧
        Quoted quoted name ∧ Blanks blanks ∧ t = .key name ∧
        s' = s.moved s'.cursor ⟨.memberValue, s.frames⟩ := by
  unfold key at h
  by_cases hHead : s.cursor.unread.head? = some 0x22
  · rw [if_pos hHead] at h
    rcases Action.bind_eq_ok_iff.mp h with ⟨name, s₁, hLex, h⟩
    rcases lex_eq_ok_iff.mp hLex with ⟨c₁, hString, rfl⟩
    rcases Action.bind_eq_ok_iff.mp h with ⟨after, s₂, hLex, h⟩
    rcases lex_eq_ok_iff.mp hLex with ⟨c₂, hAfter, rfl⟩
    rcases (Lexeme.string_eq_ok_iff hHead).mp hString with
      ⟨quoted, hReads, hQuoted⟩
    rcases Lexeme.blanks_eq_ok_iff.mp hAfter with
      ⟨blanks, hReads₁, hBlanks, rfl, _, _⟩
    by_cases hColon : c₂.unread.head? = some 0x3a
    · rw [if_pos hColon] at h
      rcases Action.bind_eq_ok_iff.mp h with ⟨next, s₃, hLex, h⟩
      rcases lex_eq_ok_iff.mp hLex with ⟨c₃, hBump, rfl⟩
      cases h
      have hReads₂ := Cursor.bump_of_head? hColon hBump
      exact ⟨quoted, blanks, name,
        (hReads.append hReads₁).append hReads₂, hQuoted, hBlanks,
        rfl, rfl⟩
    · rw [if_neg hColon] at h
      exact absurd h malformed_ne_ok
  · rw [if_neg hHead] at h
    exact absurd h malformed_ne_ok

/- Blanks before a byte that is none. -/
theorem lex_blanks
    {blanks : List UInt8}
    {c : Cursor}
    (hReads : s.cursor.Reads blanks c)
    (hBlanks : Blanks blanks)
    (hEnd :
      ∀ b, c.unread.head? = some b → Lexeme.isBlankByte b = false)
    (hClear : c.Clear) :
    lex Lexeme.blanks s =
      (.ok c.unread.head?, s.moved c s.point) :=
  lex_eq_ok_iff.mpr ⟨c,
    Lexeme.blanks_eq_ok_iff.mpr
      ⟨blanks, hReads, hBlanks, rfl, hEnd, hClear⟩, rfl⟩

theorem key_complete
    {quoted blanks : List UInt8}
    {name : String}
    {c : Cursor}
    (hReads : s.cursor.Reads (quoted ++ blanks ++ [0x3a]) c)
    (hQuoted : Quoted quoted name)
    (hBlanks : Blanks blanks) :
    key s.cursor.unread.head? s =
      (.ok (.key name), s.moved c ⟨.memberValue, s.frames⟩) := by
  rcases Cursor.Reads.append_iff.mp hReads with
    ⟨c₂, hReads, hColon⟩
  rcases Cursor.Reads.append_iff.mp hReads with
    ⟨c₁, hReads, hReads₁⟩
  have hHead : s.cursor.unread.head? = some 0x22 := by
    cases hQuoted with
    | mk _ => exact hReads.head?_unread
  have hAfter :=
    lex_blanks (s := s.moved c₁ s.point) hReads₁ hBlanks
      (by
        rw [hColon.head?_unread]
        intro b hCase
        cases hCase
        rfl)
      hColon.clear_of_cons
  unfold key
  rw [if_pos hHead]
  refine Action.bind_eq_ok_iff.mpr ⟨name, s.moved c₁ s.point,
    lex_eq_ok_iff.mpr ⟨c₁,
      (Lexeme.string_eq_ok_iff hHead).mpr ⟨quoted, hReads, hQuoted⟩,
      rfl⟩, ?_⟩
  rw [Action.bind_ok hAfter, hColon.head?_unread, if_pos rfl]
  exact Action.bind_eq_ok_iff.mpr ⟨_, _,
    lex_eq_ok_iff.mpr
      ⟨c, Cursor.bump_some_iff.mpr hColon, rfl⟩, rfl⟩

------------------------------------------------------------
-- Tokens
------------------------------------------------------------

/- A scanner has advanced over the bytes of a token. -/
def Advances
    (s : Scanner)
    (t : Token)
    (s' : Scanner) : Prop :=
  ∃ used p,
    s.cursor.Reads used s'.cursor ∧ Advance s.point used t p ∧
      s' = s.moved s'.cursor p ∧
      (t.opens = true → s.frames.length < s.maxDepth)

/- A scanner stands at the end, after a document. -/
def Ends
    (s s' : Scanner) : Prop :=
  s.stage = .topDone ∧
    ∃ blanks,
      Blanks blanks ∧ s.cursor.Reads blanks s'.cursor ∧
        s'.cursor.unread = [] ∧ s'.cursor.fault = none ∧
        s' = s.moved s'.cursor s.point

/- The value after bytes that may stand before it. -/
theorem StartsValue.advances
    {t : Token}
    {lead : List UInt8}
    {c : Cursor}
    {stage : Stage}
    (h : StartsValue (s.moved c ⟨stage, s.frames⟩) t s')
    (hReads : s.cursor.Reads lead c)
    (hLead : ValueLead s.stage lead) :
    Advances s t s' := by
  rcases h with ⟨bytes, p, hBytes, hStart, hMoved, hDepth⟩
  exact ⟨lead ++ bytes, p, hReads.append hBytes,
    ValueStart.advance (p := s.point) hStart hLead, hMoved, hDepth⟩

/- The key after bytes that may stand before it. -/
theorem key_advances
    {t : Token}
    {lead : List UInt8}
    {c : Cursor}
    {stage : Stage}
    (h :
      key c.unread.head? (s.moved c ⟨stage, s.frames⟩) = (.ok t, s'))
    (hReads : s.cursor.Reads lead c)
    (hLead : KeyLead s.stage lead) :
    Advances s t s' := by
  rcases key_sound (s := s.moved c ⟨stage, s.frames⟩) h with
    ⟨quoted, blanks, name, hKey, hQuoted, hBlanks, rfl, hMoved⟩
  refine ⟨lead ++ quoted ++ blanks ++ [0x3a], _, ?_,
    .key (p := s.point) hLead hQuoted hBlanks, hMoved, nofun⟩
  have hAll := hReads.append hKey
  simpa using hAll

/- The closing mark after blanks. -/
theorem close_advances
    {mark t : Token}
    {b : UInt8}
    {blanks : List UInt8}
    {c : Cursor}
    (hReads : s.cursor.Reads blanks c)
    (hHead : c.unread.head? = some b)
    (hAdvance :
      Advance s.point (blanks ++ [b]) mark (.after s.frames.tail))
    (hMark : mark.opens = false)
    (h : closeContainer mark (s.moved c s.point) = (.ok t, s')) :
    Advances s t s' := by
  rcases closeContainer_eq_ok_iff.mp h with
    ⟨next, c', hBump, rfl, rfl⟩
  have hByte := Cursor.bump_of_head? hHead hBump
  refine ⟨blanks ++ [b], _, hReads.append hByte, hAdvance, rfl, ?_⟩
  rw [hMark]
  nofun

/- A comma, the blanks after it, and what follows them. -/
theorem comma_sound
    {stage : Stage}
    {rest : Option UInt8 → Scanning Token}
    {t : Token}
    (hComma : s.cursor.unread.head? = some 0x2c)
    (h :
      (do
        let _ ← lex Cursor.bump
        setStage stage
        let next ← lex Lexeme.blanks
        rest next : Scanning Token) s = (.ok t, s')) :
    ∃ blanks c,
      s.cursor.Reads (0x2c :: blanks) c ∧ Blanks blanks ∧
        rest c.unread.head? (s.moved c ⟨stage, s.frames⟩) =
          (.ok t, s') := by
  rcases Action.bind_eq_ok_iff.mp h with ⟨_, s₁, hLex, h⟩
  rcases lex_eq_ok_iff.mp hLex with ⟨c₁, hBump, rfl⟩
  have hByte := Cursor.bump_of_head? hComma hBump
  rcases Action.bind_eq_ok_iff.mp h with ⟨_, s₂, hStage, h⟩
  cases hStage
  rcases Action.bind_eq_ok_iff.mp h with ⟨next, s₃, hLex, h⟩
  rcases lex_eq_ok_iff.mp hLex with ⟨c₂, hAhead, rfl⟩
  rcases Lexeme.blanks_eq_ok_iff.mp hAhead with
    ⟨blanks, hReads, hBlanks, rfl, _, _⟩
  exact ⟨blanks, c₂, hByte.append hReads, hBlanks, h⟩

/-
  A step that succeeds is an advance, or the end after a
  document.
-/
theorem token_sound
    {t : Token}
    (h : token s = (.ok t, s')) :
    Advances s t s' ∨ t = .eof ∧ Ends s s' := by
  unfold token at h
  rcases Action.bind_eq_ok_iff.mp h with ⟨next, s₁, hLex, h⟩
  rcases lex_eq_ok_iff.mp hLex with ⟨c, hAhead, rfl⟩
  rcases Lexeme.blanks_eq_ok_iff.mp hAhead with
    ⟨blanks, hReads, hBlanks, rfl, _, hClear⟩
  rcases Action.bind_ok_branch h with
    ⟨s₂, s₃, branch, hGet, hBranch, h⟩
  cases hGet
  rcases s with ⟨cursor, frames, stage, maxDepth⟩
  cases stage with
  | topValue =>
      subst hBranch
      exact .inl ((value_sound h).advances hReads (.top hBlanks))
  | topDone =>
      dsimp only [moved, point] at hBranch
      split at hBranch
      · rename_i hNone
        subst hBranch
        cases h
        have hNil : c.unread = [] := by
          simpa using hNone
        exact .inr ⟨rfl, rfl, blanks, hBlanks, hReads, hNil,
          hClear hNil, rfl⟩
      · subst hBranch
        exact absurd h malformed_ne_ok
  | firstKey =>
      dsimp only [moved, point] at hBranch
      split at hBranch
      · rename_i hHead
        subst hBranch
        exact .inl (close_advances hReads hHead
          (.closeObject (.inl rfl) hBlanks) rfl h)
      · subst hBranch
        exact .inl (key_advances h hReads (.first hBlanks))
  | key =>
      subst hBranch
      exact .inl (key_advances h hReads (.key hBlanks))
  | memberValue =>
      subst hBranch
      exact .inl ((value_sound h).advances hReads (.member hBlanks))
  | afterMember =>
      dsimp only [moved, point] at hBranch
      split at hBranch
      · rename_i hHead
        subst hBranch
        exact .inl (close_advances hReads hHead
          (.closeObject (.inr rfl) hBlanks) rfl h)
      · split at hBranch
        · rename_i hComma
          subst hBranch
          rcases comma_sound hComma h with
            ⟨after, c', hReads', hAfter, h⟩
          exact .inl (key_advances h (hReads.append hReads')
            (.more hBlanks hAfter))
        · subst hBranch
          exact absurd h malformed_ne_ok
  | firstElement =>
      dsimp only [moved, point] at hBranch
      split at hBranch
      · rename_i hHead
        subst hBranch
        exact .inl (close_advances hReads hHead
          (.closeArray (.inl rfl) hBlanks) rfl h)
      · subst hBranch
        exact .inl ((value_sound h).advances hReads (.first hBlanks))
  | element =>
      subst hBranch
      exact .inl ((value_sound h).advances hReads (.element hBlanks))
  | afterElement =>
      dsimp only [moved, point] at hBranch
      split at hBranch
      · rename_i hHead
        subst hBranch
        exact .inl (close_advances hReads hHead
          (.closeArray (.inr rfl) hBlanks) rfl h)
      · split at hBranch
        · rename_i hComma
          subst hBranch
          rcases comma_sound hComma h with
            ⟨after, c', hReads', hAfter, h⟩
          exact .inl (StartsValue.advances
            (s := ⟨cursor, frames, .afterElement, maxDepth⟩)
            (value_sound h) (hReads.append hReads')
            (.more hBlanks hAfter))
        · subst hBranch
          exact absurd h malformed_ne_ok

------------------------------------------------------------
-- Advances Are Steps
------------------------------------------------------------

/- The byte that a cursor moves over is no blank. -/
theorem head_no_blank
    {c c' : Cursor}
    {b : UInt8}
    {used : List UInt8}
    (hReads : c.Reads (b :: used) c')
    (hBlank : Lexeme.isBlankByte b = false) :
    ∀ b', c.unread.head? = some b' →
      Lexeme.isBlankByte b' = false := by
  rw [hReads.head?_unread]
  intro b' hCase
  cases hCase
  exact hBlank

theorem comma_complete
    {stage : Stage}
    (rest : Option UInt8 → Scanning Token)
    {blanks : List UInt8}
    {c : Cursor}
    (hReads : s.cursor.Reads (0x2c :: blanks) c)
    (hBlanks : Blanks blanks)
    (hEnd :
      ∀ b, c.unread.head? = some b → Lexeme.isBlankByte b = false)
    (hClear : c.Clear) :
    (do
      let _ ← lex Cursor.bump
      setStage stage
      let next ← lex Lexeme.blanks
      rest next : Scanning Token) s =
        rest c.unread.head? (s.moved c ⟨stage, s.frames⟩) := by
  rcases Cursor.Reads.cons_iff.mp hReads with ⟨c₁, hByte, hRest⟩
  have hBump :
      lex Cursor.bump s = (.ok (some 0x2c), s.moved c₁ s.point) :=
    lex_eq_ok_iff.mpr ⟨c₁, Cursor.bump_some_iff.mpr hByte, rfl⟩
  have hStage :
      setStage stage (s.moved c₁ s.point) =
        (.ok (), s.moved c₁ ⟨stage, s.frames⟩) := rfl
  rw [Action.bind_ok hBump, Action.bind_ok hStage,
    Action.bind_ok (lex_blanks (s := s.moved c₁ ⟨stage, s.frames⟩)
      hRest hBlanks hEnd hClear)]
  rfl

/- Bytes before a value are read, and then the value. -/
theorem token_value
    {lead used : List UInt8}
    {b : UInt8}
    {c c' : Cursor}
    (hLead : ValueLead s.stage lead)
    (hReads : s.cursor.Reads lead c)
    (hUsed : c.Reads (b :: used) c')
    (hBlank : Lexeme.isBlankByte b = false)
    (hClose : b ≠ 0x5d) :
    ∃ stage, token s = value (s.moved c ⟨stage, s.frames⟩) := by
  have hEnd := head_no_blank hUsed hBlank
  have hClear := hUsed.clear_of_cons
  rcases s with ⟨cursor, frames, stage, maxDepth⟩
  unfold token
  cases hLead with
  | top hBlanks =>
      rw [Action.bind_ok (lex_blanks hReads hBlanks hEnd hClear)]
      exact ⟨.topValue, rfl⟩
  | member hBlanks =>
      rw [Action.bind_ok (lex_blanks hReads hBlanks hEnd hClear)]
      exact ⟨.memberValue, rfl⟩
  | first hBlanks =>
      rw [Action.bind_ok (lex_blanks hReads hBlanks hEnd hClear),
        hUsed.head?_unread]
      refine ⟨.firstElement, ?_⟩
      change (if some b = some 0x5d then _ else value) _ = _
      rw [if_neg fun hEq => hClose (Option.some.inj hEq)]
      rfl
  | element hBlanks =>
      rw [Action.bind_ok (lex_blanks hReads hBlanks hEnd hClear)]
      exact ⟨.element, rfl⟩
  | more hBefore hAfter =>
      rcases Cursor.Reads.append_iff.mp hReads with
        ⟨c₁, hBlanks, hComma⟩
      rw [Action.bind_ok (lex_blanks hBlanks hBefore
        (head_no_blank hComma rfl) hComma.clear_of_cons),
        hComma.head?_unread]
      exact ⟨.element, comma_complete
        (s := ⟨c₁, frames, .afterElement, maxDepth⟩)
        (fun _ => value) hComma hAfter hEnd hClear⟩

/- Bytes before a key are read, and then the key. -/
theorem token_key
    {lead used : List UInt8}
    {c c' : Cursor}
    (hLead : KeyLead s.stage lead)
    (hReads : s.cursor.Reads lead c)
    (hUsed : c.Reads (0x22 :: used) c') :
    ∃ stage,
      token s =
        key c.unread.head? (s.moved c ⟨stage, s.frames⟩) := by
  have hEnd := head_no_blank hUsed rfl
  have hClear := hUsed.clear_of_cons
  rcases s with ⟨cursor, frames, stage, maxDepth⟩
  unfold token
  cases hLead with
  | first hBlanks =>
      rw [Action.bind_ok (lex_blanks hReads hBlanks hEnd hClear),
        hUsed.head?_unread]
      exact ⟨.firstKey, rfl⟩
  | key hBlanks =>
      rw [Action.bind_ok (lex_blanks hReads hBlanks hEnd hClear)]
      exact ⟨.key, rfl⟩
  | more hBefore hAfter =>
      rcases Cursor.Reads.append_iff.mp hReads with
        ⟨c₁, hBlanks, hComma⟩
      rw [Action.bind_ok (lex_blanks hBlanks hBefore
        (head_no_blank hComma rfl) hComma.clear_of_cons),
        hComma.head?_unread]
      exact ⟨.key, comma_complete
        (s := ⟨c₁, frames, .afterMember, maxDepth⟩)
        key hComma hAfter hEnd hClear⟩

/- A closing mark is read after blanks. -/
theorem token_close
    {mark : Token}
    {blanks : List UInt8}
    {b : UInt8}
    {c c' : Cursor}
    (hMark :
      (mark = .arrayClose ∧ b = 0x5d ∧
          (s.stage = .firstElement ∨ s.stage = .afterElement)) ∨
        (mark = .objectClose ∧ b = 0x7d ∧
          (s.stage = .firstKey ∨ s.stage = .afterMember)))
    (hReads : s.cursor.Reads blanks c)
    (hBlanks : Blanks blanks)
    (hByte : c.Reads [b] c') :
    token s = (.ok mark, s.moved c' (.after s.frames.tail)) := by
  have hClose :
      closeContainer mark (s.moved c s.point) =
        (.ok mark, s.moved c' (.after s.frames.tail)) :=
    closeContainer_eq_ok_iff.mpr
      ⟨_, c', Cursor.bump_some_iff.mpr hByte, rfl, rfl⟩
  have hBlank : Lexeme.isBlankByte b = false := by
    rcases hMark with ⟨_, rfl, _⟩ | ⟨_, rfl, _⟩ <;> rfl
  rcases s with ⟨cursor, frames, stage, maxDepth⟩
  unfold token
  rw [Action.bind_ok (lex_blanks hReads hBlanks
    (head_no_blank hByte hBlank) hByte.clear_of_cons),
    hByte.head?_unread]
  rcases hMark with
    ⟨rfl, rfl, rfl | rfl⟩ | ⟨rfl, rfl, rfl | rfl⟩ <;>
    exact hClose

/- A value starts with no blank and no closing mark. -/
theorem valueStart_head
    {frames : List Frame}
    {bytes : List UInt8}
    {t : Token}
    {p : Point}
    (h : ValueStart frames bytes t p) :
    ∃ b used,
      bytes = b :: used ∧ Lexeme.isBlankByte b = false ∧
        b ≠ 0x5d := by
  cases h with
  | scalar hScalar =>
      cases hScalar with
      | @word text kind hMem =>
          have hWords :
              ∀ w ∈ words, ∃ b used,
                utf8 w.1.toList = b :: used ∧
                  Lexeme.isBlankByte b = false ∧ b ≠ 0x5d := by
            simp only [words, List.forall_mem_cons]
            exact ⟨⟨_, _, rfl, rfl, by decide⟩,
              ⟨_, _, rfl, rfl, by decide⟩,
              ⟨_, _, rfl, rfl, by decide⟩, nofun⟩
          exact hWords _ hMem
      | number hNumber =>
          have hStarts :
              ∀ b ∈ numberStarts,
                Lexeme.isBlankByte b = false ∧ b ≠ 0x5d := by
            simp only [numberStarts, List.forall_mem_cons]
            refine ⟨?_, ?_, ?_, ?_, ?_, ?_, ?_, ?_, ?_, ?_, ?_,
              nofun⟩ <;>
              decide
          rcases number_head hNumber with ⟨b, used, hBytes, hMem⟩
          exact ⟨b, used, hBytes, hStarts b hMem⟩
      | string hQuoted =>
          cases hQuoted with
          | mk _ => exact ⟨_, _, rfl, rfl, by decide⟩
  | openArray => exact ⟨_, _, rfl, rfl, by decide⟩
  | openObject => exact ⟨_, _, rfl, rfl, by decide⟩

/- The start of a value, after what may stand before it. -/
theorem token_valueStart
    {lead bytes : List UInt8}
    {t : Token}
    {p : Point}
    {c : Cursor}
    (hLead : ValueLead s.stage lead)
    (hStart : ValueStart s.frames bytes t p)
    (hReads : s.cursor.Reads (lead ++ bytes) c)
    (hDepth : t.opens = true → s.frames.length < s.maxDepth)
    (hEnd :
      t.opens = false → Lexeme.NumberEnds c.unread ∧ c.Clear) :
    token s = (.ok t, s.moved c p) := by
  rcases Cursor.Reads.append_iff.mp hReads with
    ⟨c₁, hBefore, hBytes⟩
  rcases valueStart_head hStart with
    ⟨b, used, rfl, hBlank, hClose⟩
  rcases token_value hLead hBefore hBytes hBlank hClose with
    ⟨stage, hToken⟩
  rw [hToken]
  exact value_complete (s := s.moved c₁ ⟨stage, s.frames⟩) hStart
    hBytes hDepth hEnd

/-
  An advance is a step, if a container that opens is not too
  deep and no number goes on after a literal.
-/
theorem token_complete
    {used : List UInt8}
    {t : Token}
    {p : Point}
    {c : Cursor}
    (h : Advance s.point used t p)
    (hReads : s.cursor.Reads used c)
    (hDepth : t.opens = true → s.frames.length < s.maxDepth)
    (hEnd :
      ∀ lit, t = .literal lit →
        Lexeme.NumberEnds c.unread ∧ c.Clear) :
    token s = (.ok t, s.moved c p) := by
  cases h with
  | scalar hLead hScalar =>
      exact token_valueStart hLead (.scalar hScalar) hReads hDepth
        fun _ => hEnd _ rfl
  | openArray hLead =>
      exact token_valueStart hLead .openArray hReads hDepth nofun
  | openObject hLead =>
      exact token_valueStart hLead .openObject hReads hDepth nofun
  | closeArray hStage hBlanks =>
      rcases Cursor.Reads.append_iff.mp hReads with
        ⟨c₁, hReads, hByte⟩
      exact token_close (.inl ⟨rfl, rfl, hStage⟩) hReads hBlanks
        hByte
  | closeObject hStage hBlanks =>
      rcases Cursor.Reads.append_iff.mp hReads with
        ⟨c₁, hReads, hByte⟩
      exact token_close (.inr ⟨rfl, rfl, hStage⟩) hReads hBlanks
        hByte
  | key hLead hQuoted hBlanks =>
      rw [List.append_assoc, List.append_assoc,
        ← List.append_assoc _ _ [0x3a]] at hReads
      rcases Cursor.Reads.append_iff.mp hReads with
        ⟨c₁, hBefore, hKey⟩
      have hToken :
          ∃ stage,
            token s =
              key c₁.unread.head?
                (s.moved c₁ ⟨stage, s.frames⟩) := by
        cases hQuoted with
        | mk _ => exact token_key hLead hBefore hKey
      rcases hToken with ⟨stage, hToken⟩
      rw [hToken]
      exact key_complete (s := s.moved c₁ ⟨stage, s.frames⟩) hKey
        hQuoted hBlanks

/- Nothing but blanks is left after a document. -/
theorem token_eof
    {c : Cursor}
    (hStage : s.stage = .topDone)
    (hBlanks : Blanks s.cursor.unread)
    (hReads : s.cursor.Reads s.cursor.unread c)
    (hFault : c.fault = none) :
    token s = (.ok .eof, s.moved c s.point) := by
  have hNil : c.unread = [] := by
    have hUnread := hReads.unread
    simpa using hUnread
  rcases s with ⟨cursor, frames, stage, maxDepth⟩
  cases hStage
  unfold token
  rw [Action.bind_ok (lex_blanks hReads hBlanks
    (by rw [hNil]; nofun) (fun _ => hFault)), hNil]
  rfl

/- A container nested too deep is malformed input. -/
theorem token_tooDeep
    {lead used : List UInt8}
    {b : UInt8}
    {c c' : Cursor}
    (hLead : ValueLead s.stage lead)
    (hReads : s.cursor.Reads lead c)
    (hUsed : c.Reads (b :: used) c')
    (hOpen : b = 0x5b ∨ b = 0x7b)
    (hDepth : s.maxDepth ≤ s.frames.length) :
    ∃ p s',
      token s =
        (.error (.here
          (.malformed (depthMessage s.maxDepth) (some p))), s') := by
  have hByte :
      Lexeme.isBlankByte b = false ∧ b ≠ 0x5d := by
    rcases hOpen with rfl | rfl <;> decide
  rcases token_value hLead hReads hUsed hByte.1 hByte.2 with
    ⟨stage, hToken⟩
  refine ⟨c.position, s.moved c ⟨stage, s.frames⟩, ?_⟩
  rw [hToken, value, Action.bind_ok
    (lex_peek (s := s.moved c ⟨stage, s.frames⟩)
      hUsed.clear_of_cons), show
    (s.moved c ⟨stage, s.frames⟩).cursor.unread.head? = some b from
      hUsed.head?_unread]
  rcases hOpen with rfl | rfl
  · exact Action.bind_error (openContainer_tooDeep
      (s := s.moved c ⟨stage, s.frames⟩) _ _ hDepth)
  · exact Action.bind_error (openContainer_tooDeep
      (s := s.moved c ⟨stage, s.frames⟩) _ _ hDepth)

end Scanner

end TreeWire
