import Mathlib.Data.Option.Basic
import TreeWire.Proofs.Json.NumberKinds
import TreeWire.Proofs.Node.ErrorPaths
import TreeWire.Proofs.Node.SourceAgreement

/-
  Number literals, from either source.

  A number without a fraction and an exponent is an integer, and
  any other number is a double.  An integer is decoded as exactly
  itself or refused, and no number is decoded as one of the other
  kind.

  This holds of the numbers of a text and of those of the document
  that the text is parsed as, which stand at the same places.  But
  parsing turns an integer that does not fit 64 bits, and the
  negative zero, into a double, and from there on it is read as
  one.

  Key definitions include:
    * `Json.part?`
    * `Literal.ReadAsWritten`
    * `ParsedAs`

  Main statements:
    * `Parsed.part?`
    * `readAsWritten_of_number`
    * `Parsed.number_literal`
    * `number_literals_by_source`
-/

namespace TreeWire

open Grammar

------------------------------------------------------------
-- Parts of a Document
------------------------------------------------------------

namespace Json

/-
  The part of a document to which hops lead: into the last member
  with a key, or into the element at an index.
-/
def part? : Json → List Hop → Option Json
  | j, [] => some j
  | .object members, .field _ key :: path =>
      (members.reverse.lookup key).bind fun value =>
        value.part? path
  | .array items, .index i :: path =>
      items[i]?.bind fun item => item.part? path
  | _, _ :: _ => none

end Json

theorem membersParsed_iff
    {members members' : List (String × Json)} :
    MembersParsed members members' ↔
      List.Forall₂ (fun m m' => m.1 = m'.1 ∧ Parsed m.2 m'.2)
        members members' := by
  constructor
  · intro h
    induction members generalizing members' with
    | nil =>
        cases h
        exact .nil
    | cons m members ih =>
        cases h with
        | cons hValue hMembers =>
            exact .cons ⟨rfl, hValue⟩ (ih hMembers)
  · intro h
    induction h with
    | nil => exact .nil
    | @cons m m' _ _ hFirst _ ih =>
        rcases m with ⟨key, j⟩
        rcases m' with ⟨key', w⟩
        cases hFirst.1
        exact .cons hFirst.2 ih

/- A key finds members that are parsed as one another. -/
theorem lookup_related
    {members members' : List (String × Json)}
    (h :
      List.Forall₂ (fun m m' => m.1 = m'.1 ∧ Parsed m.2 m'.2)
        members members')
    (key : String) :
    Option.Rel Parsed (members.lookup key) (members'.lookup key) := by
  induction h with
  | nil => exact .none
  | @cons m m' _ _ hFirst _ ih =>
      rw [lookup_member, lookup_member, hFirst.1]
      split
      · exact .some hFirst.2
      · exact ih

theorem ItemsParsed.getElem?
    {items items' : List Json}
    (h : ItemsParsed items items')
    (i : Nat) :
    Option.Rel Parsed items[i]? items'[i]? := by
  induction i generalizing items items' with
  | zero =>
      cases h with
      | nil => exact .none
      | cons hItem _ => exact .some hItem
  | succ i ih =>
      cases h with
      | nil => exact .none
      | cons _ hItems => exact ih hItems

------------------------------------------------------------
-- Numbers That Are Parsed
------------------------------------------------------------

/- A literal that is a number. -/
def Literal.IsNumber
    (lit : Literal) : Prop :=
  lit.kind = .int ∨ lit.kind = .float

/-
  What a number is parsed as: an integer that fits 64 bits, with or
  without a sign, stays as it is; the negative zero, any other
  integer and any double become a double.
-/
inductive ParsedAs
    (lit : Literal) : Literal → Prop where
  | kept
      {n : Int}
      (hKind : lit.kind = .int)
      (hRead : readInt? lit.text = some n)
      (hZero : lit.text ≠ "-0")
      (hLow : -2 ^ 63 ≤ n)
      (hHigh : n < 2 ^ 64) :
      ParsedAs lit lit
  | lost
      {n : Int}
      (x : Binary64)
      (hKind : lit.kind = .int)
      (hRead : readInt? lit.text = some n)
      (hLost : lit.text = "-0" ∨ n < -2 ^ 63 ∨ 2 ^ 64 ≤ n) :
      ParsedAs lit ⟨.float, x.text⟩
  | float
      (x : Binary64)
      (hKind : lit.kind = .float) :
      ParsedAs lit ⟨.float, x.text⟩

/- A number of the grammar is parsed as a number. -/
theorem parsedAs_of_parse
    {text : String}
    {kind : LiteralKind}
    {w : Json}
    (hNumber : Number (utf8 text.toList) kind)
    (hParse : Json.parse (utf8 text.toList) = .ok w) :
    ∃ lit, w = .literal lit ∧ ParsedAs ⟨kind, text⟩ lit := by
  rcases number_kind hNumber with rfl | rfl
  · rcases exists_readInt? hNumber with ⟨n, hRead⟩
    by_cases hLost : text = "-0" ∨ n < -2 ^ 63 ∨ 2 ^ 64 ≤ n
    · rcases parse_int_lost hNumber hRead hLost hParse with ⟨x, rfl⟩
      exact ⟨_, rfl, .lost x rfl hRead hLost⟩
    · rw [not_or, not_or, Int.not_lt, Int.not_le] at hLost
      rcases hLost with ⟨hZero, hLow, hHigh⟩
      have hText := intText_of_readInt? hNumber hRead hZero
      rw [hText, parse_intText hLow hHigh] at hParse
      cases hParse
      refine ⟨⟨.int, text⟩, ?_, .kept rfl hRead hZero hLow hHigh⟩
      rw [hText]
      rfl
  · rcases parse_float hNumber hParse with ⟨x, rfl⟩
    exact ⟨_, rfl, .float x rfl⟩

namespace Parsed

theorem literal
    {lit : Literal}
    {w : Json}
    (h : Parsed (.literal lit) w) :
    ∃ lit', w = .literal lit' := by
  cases h with
  | same => exact ⟨lit, rfl⟩
  | number hNumber hParse =>
      rcases parsedAs_of_parse hNumber hParse with ⟨lit', rfl, _⟩
      exact ⟨lit', rfl⟩

/- What a number in a text is parsed as. -/
theorem number_literal
    {lit lit' : Literal}
    (hNumber : lit.IsNumber)
    (h : Parsed (.literal lit) (.literal lit')) :
    Number (utf8 lit.text.toList) lit.kind ∧
      Json.parse (utf8 lit.text.toList) = .ok (.literal lit') := by
  cases h with
  | same hInt hFloat =>
      rcases hNumber with hKind | hKind
      · exact absurd hKind hInt
      · exact absurd hKind hFloat
  | number hGrammar hParse => exact ⟨hGrammar, hParse⟩

/- Every number comes from a number. -/
theorem literal_number
    {j : Json}
    {lit' : Literal}
    (hNumber : lit'.IsNumber)
    (h : Parsed j (.literal lit')) :
    ∃ lit, j = .literal lit ∧ lit.IsNumber := by
  cases h with
  | same hInt hFloat =>
      rcases hNumber with hKind | hKind
      · exact absurd hKind hInt
      · exact absurd hKind hFloat
  | number hGrammar _ => exact ⟨_, rfl, number_kind hGrammar⟩

/- Hops lead to parts that are parsed as one another. -/
theorem part?
    {j w : Json}
    (h : Parsed j w)
    (path : List Hop) :
    Option.Rel Parsed (j.part? path) (w.part? path) := by
  induction path generalizing j w with
  | nil => exact .some h
  | cons hop path ih =>
      have hBind :
          ∀ {o o' : Option Json}, Option.Rel Parsed o o' →
            Option.Rel Parsed (o.bind fun part => part.part? path)
              (o'.bind fun part => part.part? path) := by
        intro o o' hRel
        cases hRel with
        | some hPart => exact ih hPart
        | none => exact .none
      cases j with
      | literal lit =>
          rcases h.literal with ⟨lit', rfl⟩
          cases hop <;> exact .none
      | array items =>
          rcases h.eq_array with ⟨items', rfl, hItems⟩
          cases hop with
          | field => exact .none
          | index i => exact hBind (hItems.getElem? i)
      | object members =>
          rcases h.eq_object with ⟨members', rfl, hMembers⟩
          cases hop with
          | index => exact .none
          | field node key =>
              have hLast := lookup_related
                (List.rel_reverse (membersParsed_iff.mp hMembers)) key
              rw [← lookup_mergeMembers members',
                ← lookup_reverse_of_nodup
                  (nodup_mergeMembers members')] at hLast
              exact hBind hLast

end Parsed

------------------------------------------------------------
-- Parts That a Decoder Reaches
------------------------------------------------------------

theorem itemsKeysDiffer_iff
    {items : List Json} :
    Json.ItemsKeysDiffer items ↔
      ∀ item ∈ items, item.KeysDiffer := by
  induction items with
  | nil => simp [Json.ItemsKeysDiffer]
  | cons item items ih =>
      rw [Json.ItemsKeysDiffer, ih, List.forall_mem_cons]

theorem membersKeysDiffer_iff
    {members : List (String × Json)} :
    Json.MembersKeysDiffer members ↔
      ∀ m ∈ members, m.2.KeysDiffer := by
  induction members with
  | nil => simp [Json.MembersKeysDiffer]
  | cons m members ih =>
      rw [Json.MembersKeysDiffer, ih, List.forall_mem_cons]

mutual

/- No key repeats in a parsed document. -/
theorem keysDiffer_of_parsed :
    ∀ {j w : Json}, Parsed j w → w.KeysDiffer
  | _, _, .same _ _ => trivial
  | _, _, .number hNumber hParse => by
      rcases parsedAs_of_parse hNumber hParse with ⟨lit, rfl, _⟩
      trivial
  | _, _, .array hItems => itemsKeysDiffer_of_parsed hItems
  | _, _, .object hMembers => by
      have hAll := membersKeysDiffer_iff.mp
        (membersKeysDiffer_of_parsed hMembers)
      refine ⟨nodup_mergeMembers _, membersKeysDiffer_iff.mpr ?_⟩
      intro m hMem
      exact hAll m (mem_of_mem_mergeMembers hMem)

theorem itemsKeysDiffer_of_parsed :
    ∀ {items items' : List Json},
      ItemsParsed items items' → Json.ItemsKeysDiffer items'
  | _, _, .nil => trivial
  | _, _, .cons hItem hItems =>
      ⟨keysDiffer_of_parsed hItem, itemsKeysDiffer_of_parsed hItems⟩

theorem membersKeysDiffer_of_parsed :
    ∀ {members members' : List (String × Json)},
      MembersParsed members members' →
      Json.MembersKeysDiffer members'
  | _, _, .nil => trivial
  | _, _, .cons hValue hMembers =>
      ⟨keysDiffer_of_parsed hValue,
        membersKeysDiffer_of_parsed hMembers⟩

end

theorem lookup_of_mem
    {members : List (String × Json)}
    {m : String × Json}
    (hKeys : (keysOf members).Nodup)
    (hMem : m ∈ members) :
    members.lookup m.1 = some m.2 := by
  induction members with
  | nil => cases hMem
  | cons first members ih =>
      rcases List.nodup_cons.mp hKeys with ⟨hFresh, hRest⟩
      rw [lookup_member]
      rcases List.mem_cons.mp hMem with rfl | hLater
      · rw [if_pos rfl]
      · have hOther : m.1 ≠ first.1 := by
          intro hEq
          exact hFresh (hEq ▸ List.mem_map_of_mem hLater)
        rw [if_neg hOther, ih hRest hLater]

/- Where no key repeats, a decoder goes where the hops lead. -/
theorem part?_of_reaches
    {shape target : Shape}
    {j s : Json}
    {path : List Hop}
    (h : Reaches shape j path target s)
    (hKeys : j.KeysDiffer) :
    j.part? path = some s := by
  induction h with
  | here => rw [Json.part?]
  | @field shape target j value s t f before after values path hNode
      _ _ _ _ ih =>
      have hMember :
          ∃ members,
            j = .object members ∧ (f.key, value) ∈ members := by
        cases hNode with
        | plain => exact ⟨_, rfl, by simp⟩
        | tagged => exact ⟨_, rfl, by simp⟩
        | variant => exact ⟨_, rfl, by simp⟩
      rcases hMember with ⟨members, rfl, hMem⟩
      have hValue := membersKeysDiffer_iff.mp hKeys.2 _ hMem
      rw [Json.part?, lookup_reverse_of_nodup hKeys.1,
        lookup_of_mem hKeys.1 hMem]
      exact ih hValue
  | @index elem target item s before after trees path _ _ ih =>
      have hItem := itemsKeysDiffer_iff.mp hKeys item (by simp)
      rw [Json.part?, List.getElem?_append_right (Nat.le_refl _),
        Nat.sub_self]
      exact ih hItem

------------------------------------------------------------
-- Reading a Number
------------------------------------------------------------

/- Digits with no point and no mark of an exponent among them. -/
def PlainDigits
    (bytes : List UInt8) : Prop :=
  0x2e ∉ bytes ∧ 0x65 ∉ bytes ∧ 0x45 ∉ bytes

theorem plainDigits_append
    {bytes more : List UInt8} :
    PlainDigits (bytes ++ more) ↔
      PlainDigits bytes ∧ PlainDigits more := by
  simp only [PlainDigits, List.mem_append, not_or]
  tauto

theorem Grammar.Digits.plainDigits
    {bytes : List UInt8}
    (h : Digits bytes) :
    PlainDigits bytes := by
  have hOther :
      ∀ b : UInt8, ¬ (0x30 ≤ b ∧ b ≤ 0x39) → b ∉ bytes :=
    fun b hRange hMem => hRange (h.2 b hMem)
  exact ⟨hOther _ (by decide), hOther _ (by decide),
    hOther _ (by decide)⟩

theorem Grammar.Whole.plainDigits
    {bytes : List UInt8}
    (h : Whole bytes) :
    PlainDigits bytes := by
  cases h with
  | zero => exact ⟨by decide, by decide, by decide⟩
  | digits hDigits => exact hDigits.plainDigits

theorem Grammar.Fraction.plainDigits_iff
    {bytes : List UInt8}
    (h : Fraction bytes) :
    PlainDigits bytes ↔ bytes = [] := by
  cases h with
  | none => simp [PlainDigits]
  | digits => simp [PlainDigits]

theorem Grammar.Exponent.plainDigits_iff
    {bytes : List UInt8}
    (h : Exponent bytes) :
    PlainDigits bytes ↔ bytes = [] := by
  cases h with
  | none => simp [PlainDigits]
  | digits hMark => rcases hMark with rfl | rfl <;> simp [PlainDigits]

/- A number is an integer if it is written in plain digits. -/
theorem number_kind_iff
    {bytes : List UInt8}
    {kind : LiteralKind}
    (h : Number bytes kind) :
    kind = .int ↔ PlainDigits bytes := by
  cases h with
  | @mk sign whole part power hSign hWhole hPart hPower =>
      have hSignPlain : PlainDigits sign := by
        rcases hSign with rfl | rfl <;> simp [PlainDigits]
      rw [plainDigits_append, plainDigits_append, plainDigits_append,
        hPart.plainDigits_iff, hPower.plainDigits_iff]
      have hFront : PlainDigits sign ∧ PlainDigits whole :=
        ⟨hSignPlain, hWhole.plainDigits⟩
      by_cases hNone : part = [] ∧ power = []
      · rw [if_pos hNone]
        exact iff_of_true rfl ⟨⟨hFront, hNone.1⟩, hNone.2⟩
      · rw [if_neg hNone]
        exact iff_of_false nofun fun h => hNone ⟨h.1.2, h.2⟩

/-
  A number is decoded by what is written: as an integer with its
  exact value, or as the nearest double, and never as one of the
  other kind.  What is beyond 64 bits is refused.
-/
structure Literal.ReadAsWritten
    (lit : Literal) : Prop where
  plain : lit.kind = .int ↔ PlainDigits (utf8 lit.text.toList)
  int :
    lit.kind = .int →
      ∃ n, readInt? lit.text = some n ∧
        (∀ m : Int64,
          ScalarType.int64.ofToken (.literal lit) = .ok (.int m) ↔
            m.toInt = n) ∧
        (n < -2 ^ 63 ∨ 2 ^ 63 ≤ n →
          ScalarType.int64.ofToken (.literal lit) =
            .error (.here (.invalidLiteral "int64" lit.text))) ∧
        ScalarType.float64.ofToken (.literal lit) =
          .error (.here (.typeMismatch "float" "int"))
  float :
    lit.kind = .float →
      (∀ x,
        ScalarType.float64.ofToken (.literal lit) = .ok (.float x) ↔
          readFloat? lit.text = some x) ∧
        (OutOfRange .float lit.text ↔
          ScalarType.float64.ofToken (.literal lit) =
            .error (.here (.invalidLiteral "float64" lit.text))) ∧
        ScalarType.int64.ofToken (.literal lit) =
          .error (.here (.typeMismatch "int" "float"))

/- An integer is read as exactly itself. -/
theorem readInt64?_iff
    {text : String}
    {n : Int}
    (hRead : readInt? text = some n)
    (m : Int64) :
    readInt64? text = some m ↔ m.toInt = n := by
  have hLow := m.le_toInt
  have hHigh := m.toInt_lt
  rw [readInt64?, hRead]
  dsimp only
  split
  · next hRange =>
      rw [Option.some.injEq, ← Int64.toInt_inj,
        Int64.toInt_ofInt_of_le hRange.1 hRange.2]
      exact eq_comm
  · next hRange =>
      refine iff_of_false (by simp) ?_
      rintro rfl
      exact hRange ⟨hLow, hHigh⟩

theorem readAsWritten_of_number
    {lit : Literal}
    (h : Number (utf8 lit.text.toList) lit.kind) :
    lit.ReadAsWritten := by
  rcases lit with ⟨kind, text⟩
  refine ⟨number_kind_iff h, ?_, ?_⟩
  · rintro rfl
    rcases exists_readInt? h with ⟨n, hRead⟩
    refine ⟨n, hRead, fun m => ?_, fun hRange => ?_, rfl⟩
    · rw [← readInt64?_iff hRead, ScalarType.ofToken_int]
      cases readInt64? text <;> simp
    · rw [ScalarType.ofToken_int,
        (OutOfRange.int hRead hRange).readInt64?_eq]
  · rintro rfl
    refine ⟨fun x => ?_, ?_, rfl⟩
    · rw [ScalarType.ofToken_float]
      cases readFloat? text <;> simp
    · rw [← readFloat?_eq_none_iff h, ScalarType.ofToken_float]
      cases readFloat? text <;> simp

/- What a number is parsed as is read as it is written, too. -/
theorem ParsedAs.readAsWritten
    {lit lit' : Literal}
    (h : ParsedAs lit lit')
    (hNumber : Number (utf8 lit.text.toList) lit.kind) :
    lit'.IsNumber ∧ lit'.ReadAsWritten := by
  cases h with
  | kept hKind =>
      exact ⟨.inl hKind, readAsWritten_of_number hNumber⟩
  | lost x => exact ⟨.inr rfl, readAsWritten_of_number (number_text x)⟩
  | float x =>
      exact ⟨.inr rfl, readAsWritten_of_number (number_text x)⟩

/- Numbers of a text and of what it is parsed as, place by place. -/
theorem Parsed.number_part_iff
    {j w : Json}
    (h : Parsed j w)
    (path : List Hop)
    (lit' : Literal) :
    w.part? path = some (.literal lit') ∧ lit'.IsNumber ↔
      ∃ lit,
        j.part? path = some (.literal lit) ∧ lit.IsNumber ∧
          Json.parse (utf8 lit.text.toList) =
            .ok (.literal lit') := by
  have hParts := h.part? path
  constructor
  · rintro ⟨hPart, hNumber⟩
    rw [hPart] at hParts
    cases hSource : j.part? path with
    | none =>
        rw [hSource] at hParts
        cases hParts
    | some part =>
        rw [hSource] at hParts
        cases hParts with
        | some hParsed =>
            rcases hParsed.literal_number hNumber with
              ⟨lit, rfl, hLiteral⟩
            exact ⟨lit, rfl, hLiteral,
              (hParsed.number_literal hLiteral).2⟩
  · rintro ⟨lit, hPart, hLiteral, hParse⟩
    rw [hPart] at hParts
    cases hTarget : w.part? path with
    | none =>
        rw [hTarget] at hParts
        cases hParts
    | some part =>
        rw [hTarget] at hParts
        cases hParts with
        | some hParsed =>
            rcases hParsed.literal with ⟨lit'', rfl⟩
            rcases hParsed.number_literal hLiteral with
              ⟨hNumber, hSame⟩
            rw [hParse] at hSame
            cases hSame
            rcases parsedAs_of_parse hNumber hParse with
              ⟨_, hEq, hAs⟩
            cases hEq
            exact ⟨rfl, (hAs.readAsWritten hNumber).1⟩

/- A literal that is refused is the error of the whole document. -/
theorem Json.decodeAs_of_refused
    {shape : Shape}
    {j : Json}
    {path : List Hop}
    {type : ScalarType}
    {lit : Literal}
    {cause : Cause}
    (hReaches : Reaches shape j path (.scalar type) (.literal lit))
    (hRefused : type.ofToken (.literal lit) = .error (.here cause)) :
    j.decodeAs shape = .error ⟨cause, path⟩ := by
  have hError := decodeAs_of_reaches hReaches
    (hRefused : (Json.literal lit).decodeAs (.scalar type) = _)
  rw [hError]
  exact congrArg _ (congrArg _ (List.append_nil path))

------------------------------------------------------------
-- Both Sources
------------------------------------------------------------

/-
  A text that is parsed, and its number literals.  The same places
  hold numbers in the text and in the parsed document.  In both a
  number is read as it is written, and the parsed document has the
  numbers of the text but for doubles, for integers that do not
  fit 64 bits and for the negative zero, which are doubles there.
  A number that is refused is the error of the whole, at its place.
-/
theorem number_literals_by_source
    (bytes : List UInt8)
    (w : Json)
    (hParse : Json.parse bytes = .ok w) :
    (∃ j, Document bytes j) ∧
    ∀ j, Document bytes j →
      (∀ path lit',
        w.part? path = some (.literal lit') ∧ lit'.IsNumber ↔
          ∃ lit,
            j.part? path = some (.literal lit) ∧ lit.IsNumber ∧
              Json.parse (utf8 lit.text.toList) =
                .ok (.literal lit')) ∧
      (∀ lit,
        .literal lit ∈ j.tokens → lit.IsNumber →
          lit.ReadAsWritten ∧
            ∀ lit',
              Json.parse (utf8 lit.text.toList) =
                  .ok (.literal lit') →
                ParsedAs lit lit' ∧ lit'.ReadAsWritten) ∧
      ∀ shape limit path type lit cause,
        type.ofToken (.literal lit) = .error (.here cause) →
          (j.depth ≤ limit →
            Reaches shape j path (.scalar type) (.literal lit) →
              decodeText shape bytes limit = .error ⟨cause, path⟩) ∧
          (w.depth ≤ limit →
            Reaches shape w path (.scalar type) (.literal lit) →
              w.part? path = some (.literal lit) ∧
                decodeParsed shape w limit =
                  .error ⟨cause, path⟩) := by
  rcases document_of_parse hParse with ⟨j, hDocument, hParsed⟩
  refine ⟨⟨j, hDocument⟩, ?_⟩
  intro j' hDocument'
  cases hDocument.unique hDocument'
  refine ⟨hParsed.number_part_iff, ?_, ?_⟩
  · intro lit hMem hKind
    have hNumber : Number (utf8 lit.text.toList) lit.kind :=
      (hDocument.spelled lit hMem).number_of_kind hKind
    refine ⟨readAsWritten_of_number hNumber, ?_⟩
    intro lit' hLiteral
    rcases parsedAs_of_parse hNumber hLiteral with ⟨_, hEq, hAs⟩
    cases hEq
    exact ⟨hAs, (hAs.readAsWritten hNumber).2⟩
  · intro shape limit path type lit cause hRefused
    constructor
    · intro hDepth hReaches
      rw [decodeText, decodeDocument_eq_decodeAs shape
        (Scanner.stream_tells limit hDocument) hDepth]
      exact Json.decodeAs_of_refused hReaches hRefused
    · intro hDepth hReaches
      refine ⟨part?_of_reaches hReaches
        (keysDiffer_of_parsed hParsed), ?_⟩
      rw [decodeParsed, decodeDocument_eq_decodeAs shape
        (ValueWalk.stream_tells w limit) hDepth]
      exact Json.decodeAs_of_refused hReaches hRefused

/- An integer literal just above the numbers of 64 bits. -/
def wideLiteral : Json :=
  .object
    [("expression_name", .string "IntLit"),
     ("value", .literal ⟨.int, "18446744073709551616"⟩)]

/- The text of the literal. -/
def wideLiteralText : List UInt8 :=
  wideLiteral.compact.toUTF8.toList

/- What the text is parsed as. -/
def wideLiteralParsed : Json :=
  .object
    [("expression_name", .string "IntLit"),
     ("value", .float
       ⟨false, 2 ^ 52, 12, by decide, by decide, by decide,
        by decide⟩)]

/-
  The number of the text is an integer out of range, and that of
  the parsed document is no integer.
-/
theorem wideLiteral_by_source :
    Json.parse wideLiteralText = .ok wideLiteralParsed ∧
    decodeText (.sum .expr) wideLiteralText 1 =
      .error ⟨.invalidLiteral "int64" "18446744073709551616",
        [.field "IntLit" "value"]⟩ ∧
    decodeParsed (.sum .expr) wideLiteralParsed 1 =
      .error ⟨.typeMismatch "int" "float",
        [.field "IntLit" "value"]⟩ := by
  have hParse :
      Json.parse wideLiteralText = .ok wideLiteralParsed := by
    rw [wideLiteralText, toUTF8_toList, Json.compact,
      String.toList_ofList]
    exact parse_of_tokens (by decide +kernel)
  have hSpelled : Json.Spelled wideLiteral.tokens := by
    intro lit hMem
    have hCases :
        lit = ⟨.string, "IntLit"⟩ ∨
          lit = ⟨.int, "18446744073709551616"⟩ := by
      simpa [wideLiteral, Json.tokens, Json.memberTokens,
        Json.string] using hMem
    rcases hCases with rfl | rfl
    · exact Json.scalar_string _
    · have hText : intText (2 ^ 64) = "18446744073709551616" := by
        decide
      rw [← hText]
      exact .number (number_intText _)
  have hDocument : Document wideLiteralText wideLiteral :=
    Json.document_compact wideLiteral hSpelled
  have hReaches (value : Json) :
      Reaches (.sum .expr)
        (.object
          [("expression_name", .string "IntLit"),
           ("value", value)])
        [.field "IntLit" "value"] (.scalar .int64) value := by
    have hNode :
        NodeMembers (.sum .expr)
          (.object
            [("expression_name", .string "IntLit"),
             ("value", value)])
          .intLit ([] ++ ("value", value) :: []) :=
      .variant (t := .intLit) rfl
    exact .field (t := .intLit)
      (f := .required "value" (.scalar .int64)) hNode .nil
      (by decide) rfl .here
  have hRefused :=
    ((number_literals_by_source _ _ hParse).2 _ hDocument).2.2
  exact ⟨hParse,
    (hRefused (.sum .expr) 1 _ .int64 _ _ rfl).1 (by decide)
      (hReaches _),
    ((hRefused (.sum .expr) 1 _ .int64 _ _ rfl).2 (by decide)
      (hReaches _)).2⟩

end TreeWire
