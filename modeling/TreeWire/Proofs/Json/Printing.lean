import TreeWire.Json.Printer
import TreeWire.Proofs.Json.Grammar

/-
  The texts of trees are documents.

  Every string is written between quotation marks with each of
  its characters plain or escaped.  So where all other literals
  of a tree are spelled as the grammar wants them, the compact
  and the indented text of the tree are documents that stand for
  the tree.  The literals of every document are spelled so.

  Main statements:
    * `Json.writeString_quoted`
    * `Json.document_compact`
    * `Json.document_pretty`
    * `Grammar.Document.spelled`
-/

namespace TreeWire

namespace Json

open Grammar

------------------------------------------------------------
-- Strings
------------------------------------------------------------

/- A small hexadecimal digit is the one with its value. -/
theorem hexDigit_digitChar
    {n : Nat}
    (h : n < 16) :
    ∃ b, String.utf8EncodeChar n.digitChar = [b] ∧ HexDigit b n := by
  by_cases hTen : n < 10
  · have hNat := Nat.toNat_digitChar_of_lt_ten hTen
    rw [utf8EncodeChar_ascii (by omega), hNat]
    exact ⟨_, rfl, .digit hTen⟩
  · have hSmall :
        ∀ m < 6, (10 + m).digitChar.toNat = 0x61 + m := by
      decide
    rcases Nat.exists_eq_add_of_le (Nat.le_of_not_lt hTen) with
      ⟨m, rfl⟩
    have hNat := hSmall m (by omega)
    rw [utf8EncodeChar_ascii (by omega), hNat]
    exact ⟨_, rfl, .small (by omega)⟩

/- A control character is escaped by its code point. -/
theorem escape_point
    {c : Char}
    {a b : Nat}
    (ha : a < 16)
    (hb : b < 16)
    (hPoint : c.toNat = 16 * a + b) :
    Escape (utf8 ['\\', 'u', '0', '0', a.digitChar, b.digitChar])
      c := by
  rcases hexDigit_digitChar ha with ⟨x, hx, hHigh⟩
  rcases hexDigit_digitChar hb with ⟨y, hy, hLow⟩
  have hZero : HexDigit 0x30 0 := .digit (by decide : 0 < 10)
  have hFour : HexFour [0x30, 0x30, x, y] c.toNat := by
    have hAll := HexFour.mk hZero hZero hHigh hLow
    rw [hPoint]
    simpa using hAll
  have hEscape : Escape (0x5c :: 0x75 :: [0x30, 0x30, x, y]) c := by
    have hEscape := Escape.point hFour (.inl (by omega))
    rwa [Char.ofNat_toNat] at hEscape
  have hBytes :
      utf8 ['\\', 'u', '0', '0', a.digitChar, b.digitChar] =
        [0x5c, 0x75, 0x30, 0x30] ++
          (String.utf8EncodeChar a.digitChar ++
            String.utf8EncodeChar b.digitChar) := by
    have hLead :
        utf8 ['\\', 'u', '0', '0'] = [0x5c, 0x75, 0x30, 0x30] := rfl
    rw [← hLead]
    simp
  rw [hBytes, hx, hy]
  exact hEscape

/- Each character stands in a string as it is written. -/
theorem letters_escape
    (c : Char)
    {bytes : List UInt8}
    {cs : List Char}
    (hRest : Letters bytes cs) :
    Letters (utf8 (escape c) ++ bytes) (c :: cs) := by
  have hLetter :
      ∀ {b : UInt8} {d e : Char},
        utf8 ['\\', d] = [0x5c, b] → (b, e) ∈ escapes →
          Letters (utf8 ['\\', d] ++ bytes) (e :: cs) := by
    intro b d e hBytes hMem
    rw [hBytes]
    exact .escape (.letter hMem) hRest
  unfold escape
  split
  · rename_i hEq
    subst hEq
    exact hLetter rfl (by decide)
  split
  · rename_i hEq
    subst hEq
    exact hLetter rfl (by decide)
  split
  · rename_i hEq
    subst hEq
    exact hLetter rfl (by decide)
  split
  · rename_i hEq
    subst hEq
    exact hLetter rfl (by decide)
  split
  · rename_i hEq
    subst hEq
    exact hLetter rfl (by decide)
  split
  · rename_i hEq
    subst hEq
    exact hLetter rfl (by decide)
  split
  · rename_i hEq
    subst hEq
    exact hLetter rfl (by decide)
  split
  · rename_i hLow
    rw [hexDigits, Nat.toDigits_of_lt_base hLow]
    have hZero : Nat.digitChar 0 = '0' := rfl
    have hEscape : Escape _ c :=
      escape_point (by decide : 0 < 16) hLow (by omega)
    rw [hZero] at hEscape
    exact .escape hEscape hRest
  split
  · rename_i hHigh hLow
    rw [hexDigits, Nat.toDigits_of_base_le (by decide) (by omega),
      Nat.toDigits_of_lt_base (by omega)]
    have hEscape :
        Escape
          (utf8 ['\\', 'u', '0', '0', (c.toNat / 16).digitChar,
            (c.toNat % 16).digitChar]) c :=
      escape_point (by omega) (Nat.mod_lt _ (by decide))
        (Nat.div_add_mod c.toNat 16).symm
    exact .escape hEscape hRest
  · rename_i hQuote hBackslash _ _ _ _ _ _ hControl
    rw [utf8_cons, utf8_nil, List.append_nil]
    exact .plain hQuote hBackslash (Nat.le_of_not_lt hControl) hRest

/- A string is written as the grammar wants it. -/
theorem writeString_quoted
    (s : String) :
    Quoted (utf8 (writeString s)) s := by
  have hLetters :
      ∀ cs : List Char, Letters (utf8 (cs.flatMap escape)) cs := by
    intro cs
    induction cs with
    | nil => exact .nil
    | cons c cs ih =>
        rw [List.flatMap_cons, utf8_append]
        exact letters_escape c ih
  rw [writeString, utf8_cons_ascii _ (by decide), utf8_append]
  exact .mk (hLetters s.toList)

------------------------------------------------------------
-- Spelled Literals
------------------------------------------------------------

/- Every literal of tokens is spelled as the grammar wants it. -/
def Spelled
    (ts : List Token) : Prop :=
  ∀ lit, .literal lit ∈ ts → Scalar (utf8 (writeLiteral lit)) lit

theorem spelled_append_iff
    {ts us : List Token} :
    Spelled (ts ++ us) ↔ Spelled ts ∧ Spelled us := by
  simp only [Spelled, List.mem_append]
  constructor
  · intro h
    exact ⟨fun lit hMem => h lit (.inl hMem),
      fun lit hMem => h lit (.inr hMem)⟩
  · rintro ⟨hLeft, hRight⟩ lit (hMem | hMem)
    · exact hLeft lit hMem
    · exact hRight lit hMem

theorem spelled_cons_iff
    {t : Token}
    {ts : List Token}
    (h : ∀ lit, t ≠ .literal lit) :
    Spelled (t :: ts) ↔ Spelled ts := by
  simp only [Spelled, List.mem_cons]
  constructor
  · intro hAll lit hMem
    exact hAll lit (.inr hMem)
  · intro hAll lit hCases
    rcases hCases with hMem | hMem
    · exact absurd hMem.symm (h lit)
    · exact hAll lit hMem

theorem scalar_string
    (s : String) :
    Scalar (utf8 (writeLiteral ⟨.string, s⟩)) ⟨.string, s⟩ :=
  .string (writeString_quoted s)

------------------------------------------------------------
-- Lists of Texts
------------------------------------------------------------

theorem blanks_nil :
    Blanks [] :=
  nofun

/-
  Elements after the first, each after a comma and the same
  blanks.
-/
theorem moreElements_flatMap
    {render : Json → List Char}
    {lead : List Char}
    {tail : List UInt8}
    {items : List Json}
    (hLead : Blanks (utf8 lead))
    (hTail : Blanks tail)
    (h : ∀ item ∈ items, Value (utf8 (render item)) item) :
    MoreElements
      (utf8 (items.flatMap fun item =>
        ',' :: (lead ++ render item)) ++ tail)
      items := by
  induction items with
  | nil => exact .nil hTail
  | cons item items ih =>
      have hFirst := h item List.mem_cons_self
      have hRest := ih fun other hMem =>
        h other (List.mem_cons_of_mem item hMem)
      have hMore :=
        MoreElements.cons blanks_nil hLead hFirst hRest
      rw [List.flatMap_cons, utf8_append,
        utf8_cons_ascii _ (by decide), utf8_append]
      simpa using hMore

/- Members after the first, likewise. -/
theorem moreMembers_flatMap
    {render : String × Json → List Char}
    {tail : List UInt8}
    {members : List (String × Json)}
    (hTail : Blanks tail)
    (h :
      ∀ m ∈ members,
        Grammar.Member (utf8 (render m)) m.1 m.2) :
    MoreMembers
      (utf8 (members.flatMap fun m => ',' :: render m) ++ tail)
      members := by
  induction members with
  | nil => exact .nil hTail
  | cons m members ih =>
      have hFirst := h m List.mem_cons_self
      have hRest := ih fun other hMem =>
        h other (List.mem_cons_of_mem m hMem)
      have hMore := MoreMembers.cons blanks_nil hFirst hRest
      rw [List.flatMap_cons, utf8_append,
        utf8_cons_ascii _ (by decide)]
      simpa using hMore

/- An array whose elements come after the same blanks. -/
theorem value_array
    {render : Json → List Char}
    (lead tail : List Char)
    {item : Json}
    {items : List Json}
    (hLead : Blanks (utf8 lead))
    (hTail : Blanks (utf8 tail))
    (h : ∀ other ∈ item :: items,
      Value (utf8 (render other)) other) :
    Value
      (utf8 ('[' :: (lead ++ render item
        ++ items.flatMap (fun other => ',' :: (lead ++ render other))
        ++ tail ++ [']'])))
      (.array (item :: items)) := by
  rw [List.forall_mem_cons] at h
  have hMore := moreElements_flatMap hLead hTail h.2
  have hArray := Value.array hLead h.1 hMore
  rw [utf8_cons_ascii _ (by decide)]
  simp only [utf8_append, List.append_assoc] at hArray ⊢
  exact hArray

/- An object, likewise. -/
theorem value_object
    {render : String × Json → List Char}
    (tail : List Char)
    {m : String × Json}
    {members : List (String × Json)}
    (hTail : Blanks (utf8 tail))
    (h : ∀ other ∈ m :: members,
      Grammar.Member (utf8 (render other)) other.1 other.2) :
    Value
      (utf8 ('\x7b' :: (render m
        ++ members.flatMap (fun other => ',' :: render other)
        ++ tail ++ ['\x7d'])))
      (.object (m :: members)) := by
  rw [List.forall_mem_cons] at h
  have hMore := moreMembers_flatMap hTail h.2
  have hObject := Value.object h.1 hMore
  rw [utf8_cons_ascii _ (by decide)]
  simp only [utf8_append, List.append_assoc] at hObject ⊢
  exact hObject

/- A member with blanks before it and before its value. -/
theorem member_mk
    (lead gap : List Char)
    (key : String)
    {text : List Char}
    {value : Json}
    (hLead : Blanks (utf8 lead))
    (hGap : Blanks (utf8 gap))
    (h : Value (utf8 text) value) :
    Grammar.Member
      (utf8 (lead ++ (writeString key ++ ':' :: (gap ++ text))))
      key value := by
  have hMember :=
    Grammar.Member.mk hLead (writeString_quoted key) blanks_nil
      hGap h
  rw [utf8_append, utf8_append, utf8_cons_ascii _ (by decide),
    utf8_append]
  simpa using hMember

------------------------------------------------------------
-- Compact Text
------------------------------------------------------------

/- A member without any blank. -/
def compactMember
    (m : String × Json) : List Char :=
  writeString m.1 ++ ':' :: m.2.writeCompact

theorem writeCompactItems_cons
    (item : Json)
    (items : List Json) :
    writeCompactItems (item :: items) =
      item.writeCompact
        ++ items.flatMap fun other => ',' :: other.writeCompact := by
  induction items generalizing item with
  | nil => simp [writeCompactItems]
  | cons next items ih =>
      rw [writeCompactItems, ih next, List.flatMap_cons]
      · simp
      · nofun

theorem writeCompactMembers_cons
    (m : String × Json)
    (members : List (String × Json)) :
    writeCompactMembers (m :: members) =
      compactMember m
        ++ members.flatMap fun other => ',' :: compactMember other := by
  induction members generalizing m with
  | nil => simp [writeCompactMembers, compactMember]
  | cons next members ih =>
      rcases m with ⟨key, value⟩
      rw [writeCompactMembers, ih next, List.flatMap_cons]
      · simp [compactMember]
      · nofun

mutual

/- The compact text of a tree stands for the tree. -/
theorem value_writeCompact :
    ∀ j : Json, Spelled j.tokens → Value (utf8 j.writeCompact) j
  | .literal lit, h =>
      .scalar (h lit (by simp [tokens]))
  | .array [], _ =>
      .emptyArray blanks_nil
  | .array (item :: items), h => by
      rw [tokens, spelled_cons_iff (by simp),
        spelled_append_iff] at h
      have hItems := values_writeCompact (item :: items) h.1
      rw [writeCompact, writeCompactItems_cons]
      have hArray :=
        value_array [] [] blanks_nil blanks_nil hItems
      simpa using hArray
  | .object [], _ =>
      .emptyObject blanks_nil
  | .object (m :: members), h => by
      rw [tokens, spelled_cons_iff (by simp),
        spelled_append_iff] at h
      have hMembers := members_writeCompact (m :: members) h.1
      rw [writeCompact, writeCompactMembers_cons]
      have hObject := value_object [] blanks_nil hMembers
      simpa using hObject

theorem values_writeCompact :
    ∀ items : List Json, Spelled (itemTokens items) →
      ∀ item ∈ items, Value (utf8 item.writeCompact) item
  | [], _ => nofun
  | first :: items, h => by
      rw [itemTokens, spelled_append_iff] at h
      rw [List.forall_mem_cons]
      exact ⟨value_writeCompact first h.1,
        values_writeCompact items h.2⟩

theorem members_writeCompact :
    ∀ members : List (String × Json),
      Spelled (memberTokens members) →
        ∀ m ∈ members,
          Grammar.Member (utf8 (compactMember m)) m.1 m.2
  | [], _ => nofun
  | (key, value) :: members, h => by
      rw [memberTokens, spelled_cons_iff (by simp),
        spelled_append_iff] at h
      rw [List.forall_mem_cons]
      refine ⟨?_, members_writeCompact members h.2⟩
      exact member_mk [] [] key blanks_nil blanks_nil
        (value_writeCompact value h.1)

end

/- The compact text of a tree is a document. -/
theorem document_compact
    (j : Json)
    (h : Spelled j.tokens) :
    Document j.compact.toUTF8.toList j := by
  have hDocument :=
    Document.mk blanks_nil (value_writeCompact j h) blanks_nil
  rw [toUTF8_toList, compact, String.toList_ofList]
  simpa using hDocument

------------------------------------------------------------
-- Indented Text
------------------------------------------------------------

theorem blanks_newLine
    (level : Nat) :
    Blanks (utf8 (newLine level)) := by
  have hSpaces : ∀ n, Blanks (utf8 (List.replicate n ' ')) := by
    intro n
    induction n with
    | zero => exact blanks_nil
    | succ n ih =>
        rw [List.replicate_succ, utf8_cons_ascii _ (by decide)]
        exact List.forall_mem_cons.mpr ⟨.inl rfl, ih⟩
  rw [newLine, utf8_cons_ascii _ (by decide)]
  exact List.forall_mem_cons.mpr
    ⟨.inr (.inr (.inl rfl)), hSpaces _⟩

/- A member on a line of its own. -/
def prettyMember
    (level : Nat)
    (m : String × Json) : List Char :=
  newLine level ++ (writeString m.1
    ++ ':' :: ([' '] ++ m.2.writePretty level))

theorem writePrettyItems_cons
    (level : Nat)
    (item : Json)
    (items : List Json) :
    writePrettyItems level (item :: items) =
      newLine level ++ item.writePretty level
        ++ items.flatMap fun other =>
          ',' :: (newLine level ++ other.writePretty level) := by
  induction items generalizing item with
  | nil => simp [writePrettyItems]
  | cons next items ih =>
      rw [writePrettyItems, ih next, List.flatMap_cons]
      · simp
      · nofun

theorem writePrettyMembers_cons
    (level : Nat)
    (m : String × Json)
    (members : List (String × Json)) :
    writePrettyMembers level (m :: members) =
      prettyMember level m
        ++ members.flatMap fun other =>
          ',' :: prettyMember level other := by
  induction members generalizing m with
  | nil => simp [writePrettyMembers, prettyMember]
  | cons next members ih =>
      rcases m with ⟨key, value⟩
      rw [writePrettyMembers, ih next, List.flatMap_cons]
      · simp [prettyMember]
      · nofun

mutual

/- The indented text of a tree stands for the tree. -/
theorem value_writePretty
    (level : Nat) :
    ∀ j : Json, Spelled j.tokens →
      Value (utf8 (j.writePretty level)) j
  | .literal lit, h =>
      .scalar (h lit (by simp [tokens]))
  | .array [], _ =>
      .emptyArray blanks_nil
  | .array (item :: items), h => by
      rw [tokens, spelled_cons_iff (by simp),
        spelled_append_iff] at h
      have hItems :=
        values_writePretty (level + 1) (item :: items) h.1
      rw [writePretty, writePrettyItems_cons]
      exact value_array (newLine (level + 1)) (newLine level)
        (blanks_newLine _) (blanks_newLine _) hItems
  | .object [], _ =>
      .emptyObject blanks_nil
  | .object (m :: members), h => by
      rw [tokens, spelled_cons_iff (by simp),
        spelled_append_iff] at h
      have hMembers :=
        members_writePretty (level + 1) (m :: members) h.1
      rw [writePretty, writePrettyMembers_cons]
      exact value_object (newLine level) (blanks_newLine _) hMembers

theorem values_writePretty
    (level : Nat) :
    ∀ items : List Json, Spelled (itemTokens items) →
      ∀ item ∈ items, Value (utf8 (item.writePretty level)) item
  | [], _ => nofun
  | first :: items, h => by
      rw [itemTokens, spelled_append_iff] at h
      rw [List.forall_mem_cons]
      exact ⟨value_writePretty level first h.1,
        values_writePretty level items h.2⟩

theorem members_writePretty
    (level : Nat) :
    ∀ members : List (String × Json),
      Spelled (memberTokens members) →
        ∀ m ∈ members,
          Grammar.Member (utf8 (prettyMember level m)) m.1 m.2
  | [], _ => nofun
  | (key, value) :: members, h => by
      rw [memberTokens, spelled_cons_iff (by simp),
        spelled_append_iff] at h
      rw [List.forall_mem_cons]
      refine ⟨?_, members_writePretty level members h.2⟩
      have hGap : Blanks (utf8 [' ']) :=
        List.forall_mem_singleton.mpr (.inl rfl)
      exact member_mk (newLine level) [' '] key
        (blanks_newLine level) hGap
        (value_writePretty level value h.1)

end

/- The indented text of a tree is a document. -/
theorem document_pretty
    (j : Json)
    (h : Spelled j.tokens) :
    Document j.pretty.toUTF8.toList j := by
  have hDocument :=
    Document.mk blanks_nil (value_writePretty 0 j h) blanks_nil
  rw [toUTF8_toList, pretty, String.toList_ofList]
  simpa using hDocument

end Json

------------------------------------------------------------
-- Documents of the Grammar
------------------------------------------------------------

namespace Grammar

open Json

/- A literal of the grammar is written as the grammar wants it. -/
theorem Scalar.spelled
    {bytes : List UInt8}
    {lit : Literal}
    (h : Scalar bytes lit) :
    Spelled (Json.literal lit).tokens := by
  intro lit' hMem
  have hSame : lit' = lit := by
    simpa [tokens] using hMem
  subst hSame
  cases h with
  | word hWord =>
      simp only [words, List.mem_cons, Prod.mk.injEq,
        List.not_mem_nil, or_false] at hWord
      rcases hWord with ⟨rfl, rfl⟩ | ⟨rfl, rfl⟩ | ⟨rfl, rfl⟩
      · exact .word (by decide)
      · exact .word (by decide)
      · exact .word (by decide)
  | string => exact scalar_string _
  | @number text kind hNumber =>
      have hKind : kind ≠ .string := by
        generalize utf8 text.toList = bytes at hNumber
        cases hNumber
        split <;> simp
      have hWritten : writeLiteral ⟨kind, text⟩ = text.toList := by
        rw [writeLiteral, if_neg hKind]
      rw [hWritten]
      exact .number hNumber

mutual

theorem Value.spelled :
    ∀ {bytes : List UInt8} {j : Json},
      Value bytes j → Spelled j.tokens
  | _, _, .scalar h => h.spelled
  | _, _, .emptyArray _ => by
      simp [tokens, itemTokens, Spelled]
  | _, _, .array _ hFirst hMore => by
      rw [tokens, spelled_cons_iff (by simp), spelled_append_iff,
        itemTokens, spelled_append_iff]
      exact ⟨⟨hFirst.spelled, hMore.spelled⟩, by simp [Spelled]⟩
  | _, _, .emptyObject _ => by
      simp [tokens, memberTokens, Spelled]
  | _, _, .object hFirst hMore => by
      rw [tokens, spelled_cons_iff (by simp), spelled_append_iff,
        memberTokens, spelled_cons_iff (by simp), spelled_append_iff]
      exact ⟨⟨hFirst.spelled, hMore.spelled⟩, by simp [Spelled]⟩

theorem MoreElements.spelled :
    ∀ {bytes : List UInt8} {items : List Json},
      MoreElements bytes items → Spelled (itemTokens items)
  | _, _, .nil _ => by
      simp [itemTokens, Spelled]
  | _, _, .cons _ _ hItem hMore => by
      rw [itemTokens, spelled_append_iff]
      exact ⟨hItem.spelled, hMore.spelled⟩

theorem Member.spelled :
    ∀ {bytes : List UInt8} {key : String} {value : Json},
      Member bytes key value → Spelled value.tokens
  | _, _, _, .mk _ _ _ _ hValue => hValue.spelled

theorem MoreMembers.spelled :
    ∀ {bytes : List UInt8} {members : List (String × Json)},
      MoreMembers bytes members → Spelled (memberTokens members)
  | _, _, .nil _ => by
      simp [memberTokens, Spelled]
  | _, _, .cons _ hMember hMore => by
      rw [memberTokens, spelled_cons_iff (by simp),
        spelled_append_iff]
      exact ⟨hMember.spelled, hMore.spelled⟩

end

/- The literals of a document are written as the grammar wants. -/
theorem Document.spelled
    {bytes : List UInt8}
    {j : Json}
    (h : Document bytes j) :
    Spelled j.tokens := by
  cases h with
  | mk _ hValue _ => exact hValue.spelled

end Grammar

end TreeWire
