import Mathlib.Algebra.Group.Int.Defs
import TreeWire.Proofs.Json.Merging
import TreeWire.Proofs.Json.ParsedNumbers

/-
  Texts that the JSON parser accepts.

  They are documents of the grammar.  The parsed tree differs
  from the tree of the grammar in two things: a number is what
  its own text is parsed as, and members with the same key are
  merged.

  Key definitions include:
    * `Parsed`

  Main statements:
    * `JsonParser.value_sound`
    * `document_of_parse`
    * `parse_intText`
-/

namespace TreeWire

open Grammar

------------------------------------------------------------
-- Trees and Parsed Trees
------------------------------------------------------------

mutual

/- The tree of a text, and the tree that the text is parsed as. -/
inductive Parsed : Json → Json → Prop where
  | same
      {lit : Literal}
      (hInt : lit.kind ≠ .int)
      (hFloat : lit.kind ≠ .float) :
      Parsed (.literal lit) (.literal lit)
  | number
      {text : String}
      {kind : LiteralKind}
      {w : Json}
      (hNumber : Number (utf8 text.toList) kind)
      (hParse : Json.parse (utf8 text.toList) = .ok w) :
      Parsed (.literal ⟨kind, text⟩) w
  | array
      {items items' : List Json}
      (hItems : ItemsParsed items items') :
      Parsed (.array items) (.array items')
  | object
      {members members' : List (String × Json)}
      (hMembers : MembersParsed members members') :
      Parsed (.object members) (.object (mergeMembers members'))

/- The elements of an array. -/
inductive ItemsParsed : List Json → List Json → Prop where
  | nil :
      ItemsParsed [] []
  | cons
      {j w : Json}
      {items items' : List Json}
      (hItem : Parsed j w)
      (hItems : ItemsParsed items items') :
      ItemsParsed (j :: items) (w :: items')

/- The members of an object, before they are merged. -/
inductive MembersParsed :
    List (String × Json) →
    List (String × Json) → Prop where
  | nil :
      MembersParsed [] []
  | cons
      {key : String}
      {j w : Json}
      {members members' : List (String × Json)}
      (hValue : Parsed j w)
      (hMembers : MembersParsed members members') :
      MembersParsed ((key, j) :: members) ((key, w) :: members')

end

------------------------------------------------------------
-- Numbers Alone
------------------------------------------------------------

/- A text is parsed as the value that is all of it. -/
theorem parse_of_value
    {bytes : List UInt8}
    {w : Json}
    {c : JsonCursor}
    (h : JsonParser.value 128 ⟨bytes, 1, 0⟩ = .ok (w, c))
    (hEnd : c.unread = []) :
    Json.parse bytes = .ok w := by
  have hBlanks : JsonParser.blanks c = .ok (none, c) := by
    refine JsonParser.blanks_eq_ok_iff.mpr ⟨[],
      JsonCursor.Reads.nil_iff.mpr rfl, nofun, ?_, nofun⟩
    rw [hEnd]
    rfl
  have hDocument :
      JsonParser.document ⟨bytes, 1, 0⟩ = .ok (w, c) := by
    rw [JsonParser.document, JsonParser.bind_ok h,
      JsonParser.bind_ok hBlanks]
    rfl
  rw [Json.parse, hDocument]

namespace JsonParser

variable {c c' : JsonCursor}

theorem blanks_of_head?
    {b : UInt8}
    (hHead : c.unread.head? = some b)
    (hBlank : Lexeme.isBlankByte b = false) :
    blanks c = .ok (some b, c) := by
  refine blanks_eq_ok_iff.mpr ⟨[],
    JsonCursor.Reads.nil_iff.mpr rfl, nofun, hHead.symm, ?_⟩
  intro b' hEq
  cases hEq
  exact hBlank

/- A value that starts with a digit is a number. -/
theorem value_of_digit
    {b : UInt8}
    (levels : Nat)
    (hHead : c.unread.head? = some b)
    (hDigit : Lexeme.isDigitByte b = true) :
    value (levels + 1) c = number false c := by
  have hBlank : Lexeme.isBlankByte b = false := by
    rw [Bool.eq_false_iff, ne_eq, Lexeme.isBlankByte_iff]
    intro hCases
    rcases hCases with rfl | rfl | rfl | rfl <;> cases hDigit
  rw [value, bind_ok (blanks_of_head? hHead hBlank)]
  refine congrFun ?_ c
  split
  case h_1 hNone => cases hNone
  case h_9 hSame =>
    cases hSame
    rw [if_pos hDigit]
  all_goals
    rename_i hMark
    cases hMark
    cases hDigit

/- A value that starts with a minus sign is a number. -/
theorem value_of_minus
    (levels : Nat)
    (h : c.Reads [0x2d] c') :
    value (levels + 1) c = number true c' := by
  rw [value, bind_ok (blanks_of_head? h.head?_unread rfl)]
  exact bind_ok (next_some_iff.mpr h)

end JsonParser

/- The sign ahead of a number. -/
def minusOf : Bool → List UInt8
  | true => [0x2d]
  | false => []

/- A number that stands alone is what its text is parsed as. -/
theorem parse_of_alone
    {negative : Bool}
    {b : UInt8}
    {bytes : List UInt8}
    {w : Json}
    (hDigit : Lexeme.isDigitByte b = true)
    (h :
      JsonParser.Alone (JsonParser.number negative)
        (b :: bytes) w) :
    Json.parse (minusOf negative ++ b :: bytes) = .ok w := by
  cases negative with
  | false =>
      rcases JsonCursor.reads_all (b :: bytes) 1 0 with
        ⟨c', hReads, hEnd⟩
      have hValue :=
        JsonParser.value_of_digit 127 hReads.head?_unread hDigit
      exact parse_of_value
        (hValue.trans (h _ c' hReads hEnd)) hEnd
  | true =>
      rcases JsonCursor.reads_all (0x2d :: b :: bytes) 1 0 with
        ⟨c', hReads, hEnd⟩
      rcases JsonCursor.Reads.cons_iff.mp hReads with
        ⟨c₁, hMinus, hRest⟩
      have hValue := JsonParser.value_of_minus 127 hMinus
      exact parse_of_value
        (hValue.trans (h c₁ c' hRest hEnd)) hEnd

theorem whole_eq_cons
    {bytes : List UInt8}
    (h : Whole bytes) :
    ∃ b rest,
      bytes = b :: rest ∧ Lexeme.isDigitByte b = true := by
  cases h with
  | zero => exact ⟨0x30, [], rfl, rfl⟩
  | digits hDigits _ =>
      cases bytes with
      | nil => exact absurd rfl hDigits.1
      | cons b rest =>
          exact ⟨b, rest, rfl,
            Lexeme.isDigitByte_iff.mpr (hDigits.2 b (by simp))⟩

/- The text of an integer that fits is parsed as that integer. -/
theorem parse_intText
    {n : Int}
    (hLow : -2 ^ 63 ≤ n)
    (hHigh : n < 2 ^ 64) :
    Json.parse (utf8 (intText n).toList) = .ok (.int n) := by
  have hDigits :
      ∀ (negative : Bool) (m : Nat), m ≤ JsonNumber.greatestWord →
        Json.parse (minusOf negative ++ utf8 (Nat.toDigits 10 m)) =
          .ok (JsonNumber.integer negative m) := by
    intro negative m hFits
    have hAlone := JsonParser.number_toDigits negative hFits
    rcases whole_eq_cons (whole_toDigits m) with
      ⟨b, rest, hBytes, hDigit⟩
    rw [hBytes] at hAlone ⊢
    exact parse_of_alone hDigit hAlone
  have hMost : JsonNumber.greatestWord = 2 ^ 64 - 1 := rfl
  cases n with
  | ofNat m =>
      have hHigh' : (m : Int) < 2 ^ 64 := hHigh
      have hFits : m ≤ JsonNumber.greatestWord := by
        rw [hMost]
        omega
      rw [intText, String.toList_ofList]
      exact hDigits false m hFits
  | negSucc m =>
      have hFits : m + 1 ≤ JsonNumber.greatestWord := by
        rw [hMost]
        omega
      have hRange : 0 < m + 1 ∧ m + 1 ≤ 0x8000000000000000 := by
        omega
      have hInteger :
          JsonNumber.integer true (m + 1) = .int (.negSucc m) := by
        rw [JsonNumber.integer, if_neg (by simp), if_pos hRange]
        rfl
      rw [intText, String.toList_ofList,
        utf8_cons_ascii _ (by decide), ← hInteger]
      exact hDigits true (m + 1) hFits

------------------------------------------------------------
-- Values of the Grammar
------------------------------------------------------------

namespace JsonParser

variable {c c' : JsonCursor}

/- What is read as a number is a number with that value. -/
theorem number_sound
    {negative : Bool}
    {w : Json}
    (h : number negative c = .ok (w, c')) :
    ∃ bytes j,
      c.Reads bytes c' ∧ Value (minusOf negative ++ bytes) j ∧
        Parsed j w := by
  rcases number_local h with
    ⟨whole, part, power, hReads, hWhole, hPart, hPower, hAlone⟩
  have hSign :
      minusOf negative = [] ∨ minusOf negative = [0x2d] := by
    cases negative with
    | false => exact .inl rfl
    | true => exact .inr rfl
  have hNumber := Number.mk hSign hWhole hPart hPower
  rw [List.append_assoc, List.append_assoc] at hNumber
  have hText := Lexeme.utf8_asciiText hNumber.ascii
  have hParse :
      Json.parse (minusOf negative ++ (whole ++ (part ++ power))) =
        .ok w := by
    rcases whole_eq_cons hWhole with ⟨b, rest, rfl, hDigit⟩
    exact parse_of_alone hDigit hAlone
  rw [← hText] at hNumber hParse
  refine ⟨_, _, hReads, ?_, .number hNumber hParse⟩
  have hValue := Value.scalar (Scalar.number hNumber)
  rwa [hText] at hValue

/- A value is read, after blanks. -/
def ReadsValue
    (c : JsonCursor)
    (w : Json)
    (c' : JsonCursor) : Prop :=
  ∃ before bytes j,
    c.Reads (before ++ bytes) c' ∧ Blanks before ∧
      Value bytes j ∧ Parsed j w

/- More blanks may stand ahead. -/
theorem ReadsValue.after_blanks
    {blanks : List UInt8}
    {c₁ : JsonCursor}
    {w : Json}
    (hReads : c.Reads blanks c₁)
    (hBlanks : Blanks blanks)
    (h : ReadsValue c₁ w c') :
    ReadsValue c w c' := by
  rcases h with ⟨before, bytes, j, hRest, hBefore, hValue, hParsed⟩
  refine ⟨blanks ++ before, bytes, j, ?_, ?_, hValue, hParsed⟩
  · rw [List.append_assoc]
    exact hReads.append hRest
  · exact List.forall_mem_append.mpr ⟨hBlanks, hBefore⟩

section

variable {item : JsonParser Json}
variable
  (hItem :
    ∀ {c w c'}, item c = .ok (w, c') → ReadsValue c w c')

include hItem

------------------------------------------------------------
-- Arrays
------------------------------------------------------------

/-
  The elements after the first one.  The induction is on the
  rounds, each of which reads the closing mark or an element
  after a comma.
-/
theorem elements_more
    {rounds : List UInt8}
    {done items : List Json}
    (hDone : done ≠ [])
    (h : elements item done rounds c = .ok (items, c')) :
    ∃ more js ws,
      c.Reads (more ++ [0x5d]) c' ∧ MoreElements more js ∧
        ItemsParsed js ws ∧ items = done.reverse ++ ws := by
  induction rounds generalizing c done with
  | nil => exact absurd h failNext_ne_ok
  | cons _ rounds ih =>
      rcases blanks_branch h with
        ⟨before, c₁, o, branch, hBefore, hAll, hHead, hBranch, h⟩
      split at hBranch
      · subst hBranch
        exact absurd h fail_ne_ok
      · subst hBranch
        rcases next_then hHead h with ⟨_, hClose, hPure⟩
        cases hPure
        exact ⟨before, [], [], hBefore.append hClose,
          .nil hAll, .nil, by simp⟩
      · rename_i byte _
        rw [if_neg (by simpa using hDone)] at hBranch
        split at hBranch
        case isFalse =>
          subst hBranch
          exact absurd h failNext_ne_ok
        rename_i hComma
        subst hBranch hComma
        rcases next_then hHead h with ⟨c₂, hComma, h⟩
        rcases blanks_branch h with
          ⟨after, c₃, o, branch, hAfter, hAll', _, hBranch, h⟩
        split at hBranch
        · subst hBranch
          exact absurd h fail_ne_ok
        · subst hBranch
          exact absurd h failNext_ne_ok
        · subst hBranch
          rcases bind_eq_ok_iff.mp h with ⟨w, c₄, hValue, h⟩
          rcases ReadsValue.after_blanks hAfter hAll' (hItem hValue)
            with ⟨after, bytes, j, hReads, hAfter, hGrammar, hParsed⟩
          rcases ih (by simp) h with
            ⟨more, js, ws, hMore, hElements, hItems, rfl⟩
          refine ⟨before ++ 0x2c :: (after ++ bytes ++ more), j :: js,
            w :: ws, ?_, .cons hAll hAfter hGrammar hElements,
            .cons hParsed hItems, by simp⟩
          have hAllRead :=
            hBefore.append (hComma.append (hReads.append hMore))
          simpa using hAllRead

/- An array, from after its opening mark. -/
theorem elements_sound
    {rounds : List UInt8}
    {items : List Json}
    (h : elements item [] rounds c = .ok (items, c')) :
    ∃ bytes j,
      c.Reads bytes c' ∧ Value (0x5b :: bytes) j ∧
        Parsed j (.array items) := by
  cases rounds with
  | nil => exact absurd h failNext_ne_ok
  | cons _ rounds =>
      rcases blanks_branch h with
        ⟨before, c₁, o, branch, hBefore, hAll, hHead, hBranch, h⟩
      split at hBranch
      · subst hBranch
        exact absurd h fail_ne_ok
      · subst hBranch
        rcases next_then hHead h with ⟨_, hClose, hPure⟩
        cases hPure
        exact ⟨_, _, hBefore.append hClose, .emptyArray hAll,
          .array .nil⟩
      · rw [if_pos List.isEmpty_nil] at hBranch
        subst hBranch
        rcases bind_eq_ok_iff.mp h with ⟨w, c₂, hValue, h⟩
        rcases ReadsValue.after_blanks hBefore hAll (hItem hValue)
          with ⟨before, bytes, j, hReads, hBefore, hGrammar, hParsed⟩
        rcases elements_more hItem (by simp) h with
          ⟨more, js, ws, hMore, hElements, hItems, rfl⟩
        refine ⟨before ++ bytes ++ more ++ [0x5d], _, ?_,
          .array hBefore hGrammar hElements,
          .array (.cons hParsed hItems)⟩
        rw [List.append_assoc]
        exact hReads.append hMore

------------------------------------------------------------
-- Objects
------------------------------------------------------------

/- A member, from its key on; blanks may stand before it. -/
theorem member_sound
    {m : String × Json}
    (hHead : c.unread.head? = some 0x22)
    (h : member item c = .ok (m, c')) :
    ∃ bytes j,
      c.Reads bytes c' ∧ Parsed j m.2 ∧
        ∀ blanks, Blanks blanks →
          Grammar.Member (blanks ++ bytes) m.1 j := by
  rcases bind_eq_ok_iff.mp h with ⟨key, c₁, hString, h⟩
  rcases string_sound hHead hString with ⟨quoted, hKey, hQuoted⟩
  rcases blanks_branch h with
    ⟨before, c₂, o, branch, hBefore, hAll, hHead', hBranch, h⟩
  split at hBranch
  · subst hBranch
    exact absurd h fail_ne_ok
  · subst hBranch
    rcases next_then hHead' h with ⟨c₃, hColon, h⟩
    rcases bind_eq_ok_iff.mp h with ⟨w, _, hValue, hPure⟩
    cases hPure
    rcases hItem hValue with
      ⟨after, bytes, j, hReads, hAfter, hGrammar, hParsed⟩
    refine ⟨quoted ++ before ++ 0x3a :: (after ++ bytes), j, ?_,
      hParsed, fun blanks hBlank => ?_⟩
    · have hAllRead :=
        hKey.append (hBefore.append (hColon.append hReads))
      simpa using hAllRead
    · have hMember :=
        Grammar.Member.mk hBlank hQuoted hAll hAfter hGrammar
      simpa using hMember
  · subst hBranch
    exact absurd h failNext_ne_ok

/-
  The members after the first one, by induction on the rounds as
  for elements.
-/
theorem members_more
    {rounds : List UInt8}
    {done members : List (String × Json)}
    (hDone : done ≠ [])
    (h : JsonParser.members item done rounds c =
      .ok (members, c')) :
    ∃ more ms ws,
      c.Reads (more ++ [0x7d]) c' ∧ MoreMembers more ms ∧
        MembersParsed ms ws ∧ members = done.reverse ++ ws := by
  induction rounds generalizing c done with
  | nil => exact absurd h failNext_ne_ok
  | cons _ rounds ih =>
      rcases blanks_branch h with
        ⟨before, c₁, o, branch, hBefore, hAll, hHead, hBranch, h⟩
      split at hBranch
      · subst hBranch
        exact absurd h fail_ne_ok
      · subst hBranch
        rcases next_then hHead h with ⟨_, hClose, hPure⟩
        cases hPure
        exact ⟨before, [], [], hBefore.append hClose,
          .nil hAll, .nil, by simp⟩
      · rw [if_neg (by simpa using hDone)] at hBranch
        split at hBranch
        case isFalse =>
          subst hBranch
          exact absurd h failNext_ne_ok
        rename_i hComma
        subst hBranch hComma
        rcases next_then hHead h with ⟨c₂, hComma, h⟩
        rcases blanks_branch h with
          ⟨after, c₃, o, branch, hAfter, hAll', hHead', hBranch, h⟩
        split at hBranch
        · subst hBranch
          exact absurd h fail_ne_ok
        · subst hBranch
          rcases bind_eq_ok_iff.mp h with ⟨m, c₄, hMember, h⟩
          rcases member_sound hItem hHead' hMember with
            ⟨bytes, j, hReads, hParsed, hGrammar⟩
          rcases ih (by simp) h with
            ⟨more, ms, ws, hMore, hMembers, hItems, rfl⟩
          refine ⟨before ++ 0x2c :: (after ++ bytes ++ more),
            (m.1, j) :: ms, (m.1, m.2) :: ws, ?_,
            .cons hAll (hGrammar after hAll') hMembers,
            .cons hParsed hItems, by simp⟩
          have hAllRead :=
            hBefore.append (hComma.append
              (hAfter.append (hReads.append hMore)))
          simpa using hAllRead
        · subst hBranch
          exact absurd h failNext_ne_ok
        · subst hBranch
          exact absurd h failNext_ne_ok

/- An object, from after its opening mark. -/
theorem members_sound
    {rounds : List UInt8}
    {members : List (String × Json)}
    (h : JsonParser.members item [] rounds c =
      .ok (members, c')) :
    ∃ bytes j,
      c.Reads bytes c' ∧ Value (0x7b :: bytes) j ∧
        Parsed j (.object (mergeMembers members)) := by
  cases rounds with
  | nil => exact absurd h failNext_ne_ok
  | cons _ rounds =>
      rcases blanks_branch h with
        ⟨before, c₁, o, branch, hBefore, hAll, hHead, hBranch, h⟩
      split at hBranch
      · subst hBranch
        exact absurd h fail_ne_ok
      · subst hBranch
        rcases next_then hHead h with ⟨_, hClose, hPure⟩
        cases hPure
        exact ⟨_, _, hBefore.append hClose, .emptyObject hAll,
          .object .nil⟩
      · rw [if_pos List.isEmpty_nil] at hBranch
        split at hBranch
        case isFalse =>
          subst hBranch
          exact absurd h failNext_ne_ok
        rename_i hQuote
        subst hBranch hQuote
        rcases bind_eq_ok_iff.mp h with ⟨m, c₂, hMember, h⟩
        rcases member_sound hItem hHead hMember with
          ⟨bytes, j, hReads, hParsed, hGrammar⟩
        rcases members_more hItem (by simp) h with
          ⟨more, ms, ws, hMore, hMembers, hItems, rfl⟩
        refine ⟨before ++ bytes ++ more ++ [0x7d], _, ?_,
          .object (hGrammar before hAll) hMembers,
          .object (.cons hParsed hItems)⟩
        have hAllRead := hBefore.append (hReads.append hMore)
        simpa using hAllRead

end

------------------------------------------------------------
-- Documents
------------------------------------------------------------

/- A word is read as the literal that it is. -/
theorem word_value
    {text : String}
    {kind : LiteralKind}
    {w : Json}
    (hWord : (text, kind) ∈ words)
    (h :
      (word (utf8 text.toList) >>= fun _ =>
          pure (.literal ⟨kind, text⟩) : JsonParser Json) c =
        .ok (w, c')) :
    ReadsValue c w c' := by
  rcases bind_eq_ok_iff.mp h with ⟨_, _, hRead, hPure⟩
  cases hPure
  refine ⟨[], _, _, word_sound hRead, nofun,
    .scalar (.word hWord), ?_⟩
  simp only [words, List.mem_cons, Prod.mk.injEq, List.not_mem_nil,
    or_false] at hWord
  rcases hWord with ⟨rfl, rfl⟩ | ⟨rfl, rfl⟩ | ⟨rfl, rfl⟩ <;>
    exact .same nofun nofun

/-
  What is read as a value is a value of the grammar, after
  blanks.  The induction is on the levels that are left.
-/
theorem value_sound
    {levels : Nat}
    {w : Json}
    (h : value levels c = .ok (w, c')) :
    ReadsValue c w c' := by
  induction levels generalizing c w c' with
  | zero => exact absurd h failNext_ne_ok
  | succ levels ih =>
      rw [value] at h
      rcases blanks_branch h with
        ⟨before, c₁, o, branch, hBefore, hAll, hHead, hBranch, h⟩
      apply ReadsValue.after_blanks hBefore hAll
      split at hBranch
      · subst hBranch
        exact absurd h fail_ne_ok
      · subst hBranch
        have hWord : ("null", LiteralKind.null) ∈ words := by
          simp [words]
        exact word_value hWord h
      · subst hBranch
        have hWord : ("true", LiteralKind.bool) ∈ words := by
          simp [words]
        exact word_value hWord h
      · subst hBranch
        have hWord : ("false", LiteralKind.bool) ∈ words := by
          simp [words]
        exact word_value hWord h
      · subst hBranch
        rcases next_then hHead h with ⟨c₂, hMinus, h⟩
        rcases number_sound h with ⟨bytes, j, hReads, hValue, hParsed⟩
        exact ⟨[], _, j, hMinus.append hReads, nofun, hValue, hParsed⟩
      · subst hBranch
        rcases bind_eq_ok_iff.mp h with ⟨text, _, hString, hPure⟩
        cases hPure
        rcases string_sound hHead hString with
          ⟨used, hReads, hQuoted⟩
        exact ⟨[], used, _, hReads, nofun,
          .scalar (.string hQuoted), .same nofun nofun⟩
      · split at hBranch
        · subst hBranch
          exact absurd h failNext_ne_ok
        subst hBranch
        rcases next_then hHead h with ⟨c₂, hOpen, h⟩
        rcases bind_eq_ok_iff.mp h with ⟨_, _, hGet, h⟩
        cases hGet
        rcases bind_eq_ok_iff.mp h with ⟨items, _, hElements, hPure⟩
        cases hPure
        rcases elements_sound ih hElements with
          ⟨bytes, j, hReads, hValue, hParsed⟩
        exact ⟨[], _, j, hOpen.append hReads, nofun, hValue, hParsed⟩
      · split at hBranch
        · subst hBranch
          exact absurd h failNext_ne_ok
        subst hBranch
        rcases next_then hHead h with ⟨c₂, hOpen, h⟩
        rcases bind_eq_ok_iff.mp h with ⟨_, _, hGet, h⟩
        cases hGet
        rcases bind_eq_ok_iff.mp h with ⟨pairs, _, hMembers, hPure⟩
        cases hPure
        rcases members_sound ih hMembers with
          ⟨bytes, j, hReads, hValue, hParsed⟩
        rw [foldl_insert]
        exact ⟨[], _, j, hOpen.append hReads, nofun, hValue, hParsed⟩
      · split at hBranch
        · subst hBranch
          rcases number_sound h with
            ⟨bytes, j, hReads, hValue, hParsed⟩
          exact ⟨[], bytes, j, hReads, nofun, hValue, hParsed⟩
        · subst hBranch
          exact absurd h failNext_ne_ok

end JsonParser

/- A text that is parsed is a document of the grammar. -/
theorem document_of_parse
    {bytes : List UInt8}
    {w : Json}
    (h : Json.parse bytes = .ok w) :
    ∃ j, Document bytes j ∧ Parsed j w := by
  unfold Json.parse at h
  split at h
  case h_2 => cases h
  rename_i w' c hDocument
  cases h
  rcases JsonParser.bind_eq_ok_iff.mp hDocument with
    ⟨_, c₁, hValue, hRest⟩
  rcases JsonParser.value_sound hValue with
    ⟨before, value, j, hReads, hBefore, hGrammar, hParsed⟩
  rcases JsonParser.blanks_branch hRest with
    ⟨after, c₂, o, branch, hAfter, hAll, hHead, hBranch, hEnd⟩
  cases o with
  | some b =>
      subst hBranch
      exact absurd hEnd JsonParser.failNext_ne_ok
  | none =>
      subst hBranch
      cases hEnd
      have hNil : c.unread = [] := List.head?_eq_none_iff.mp hHead
      have hBytes := (hReads.append hAfter).unread
      rw [hNil, List.append_nil] at hBytes
      refine ⟨j, ?_, hParsed⟩
      rw [show bytes = before ++ value ++ after from hBytes]
      exact .mk hBefore hGrammar hAll

end TreeWire
