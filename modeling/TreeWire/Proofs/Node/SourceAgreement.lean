import TreeWire.Proofs.Json.Parsing
import TreeWire.Proofs.Json.Printing
import TreeWire.Proofs.Node.ToldDocuments
import TreeWire.Proofs.Number.FloatReading
import TreeWire.Proofs.Source.ScannedDocuments
import TreeWire.Proofs.Source.Walking

/-
  Decoding a text, and decoding what it is parsed as.

  The parsed document has other numbers and merged members.  A
  number is kept when it is parsed as what a decoder would read
  it as.  Where all numbers are kept, what the text denotes is
  denoted by the parsed document too: of repeated keys a decoder
  takes the last one, as merging does.  Where no key repeats,
  the tokens of both are alike, and so are all results.

  Key definitions include:
    * `Literal.Kept`
    * `LiteralsKept`
    * `Json.KeysDiffer`

  Main statements:
    * `denotes_of_parsed`
    * `tokens_alike_of_parsed`
    * `decodeText_agrees_with_decodeParsed`
-/

namespace TreeWire

open Grammar

------------------------------------------------------------
-- Numbers That Are Kept
------------------------------------------------------------

/-
  A literal that parsing keeps: an integer that fits 64 bits,
  with or without a sign, and is no negative zero; or a float
  that is parsed as the double nearest to it.
-/
def Literal.Kept
    (lit : Literal) : Prop :=
  match lit.kind with
  | .int =>
      lit.text ≠ "-0" ∧
        ∃ n, readInt? lit.text = some n ∧ -2 ^ 63 ≤ n ∧ n < 2 ^ 64
  | .float =>
      ∃ x,
        Json.parse (utf8 lit.text.toList) = .ok (.float x) ∧
          readFloat? lit.text = some x
  | _ =>
      True

/- All literals among tokens are kept. -/
def LiteralsKept
    (ts : List Token) : Prop :=
  ∀ lit, .literal lit ∈ ts → lit.Kept

theorem literalsKept_literal
    {lit : Literal} :
    LiteralsKept (Json.literal lit).tokens ↔ lit.Kept := by
  simp [LiteralsKept, Json.tokens]

theorem literalsKept_array
    {items : List Json} :
    LiteralsKept (Json.array items).tokens ↔
      LiteralsKept (Json.itemTokens items) := by
  simp [LiteralsKept, Json.tokens]

theorem literalsKept_object
    {members : List (String × Json)} :
    LiteralsKept (Json.object members).tokens ↔
      LiteralsKept (Json.memberTokens members) := by
  simp [LiteralsKept, Json.tokens]

theorem literalsKept_item
    {item : Json}
    {items : List Json} :
    LiteralsKept (Json.itemTokens (item :: items)) ↔
      LiteralsKept item.tokens ∧
        LiteralsKept (Json.itemTokens items) := by
  simp [LiteralsKept, Json.itemTokens, or_imp, forall_and]

theorem literalsKept_member
    {key : String}
    {value : Json}
    {members : List (String × Json)} :
    LiteralsKept (Json.memberTokens ((key, value) :: members)) ↔
      LiteralsKept value.tokens ∧
        LiteralsKept (Json.memberTokens members) := by
  simp [LiteralsKept, Json.memberTokens, or_imp, forall_and]

theorem number_kind
    {bytes : List UInt8}
    {kind : LiteralKind}
    (h : Number bytes kind) :
    kind = .int ∨ kind = .float := by
  cases h with
  | mk =>
      split
      · exact .inl rfl
      · exact .inr rfl

/- A literal that is kept is parsed as an alike one. -/
theorem Parsed.literal_alike
    {lit : Literal}
    {w : Json}
    (h : Parsed (.literal lit) w)
    (hKept : lit.Kept) :
    ∃ lit',
      w = .literal lit' ∧
        (Token.literal lit).Alike (.literal lit') := by
  cases h with
  | same => exact ⟨lit, rfl, .refl _⟩
  | @number text kind _ hNumber hParse =>
      rcases number_kind hNumber with rfl | rfl
      · rcases hKept with ⟨hZero, n, hRead, hLow, hHigh⟩
        have hText : text = intText n :=
          intText_of_readInt? hNumber hRead hZero
        have hSame := parse_intText hLow hHigh
        rw [← hText, hParse] at hSame
        cases hSame
        refine ⟨⟨.int, intText n⟩, rfl, ?_⟩
        rw [hText]
        exact .refl _
      · rcases hKept with ⟨x, hSame, hRead⟩
        rw [hParse] at hSame
        cases hSame
        exact ⟨⟨.float, x.text⟩, rfl,
          .inr ⟨text, x.text, x, rfl, rfl, hRead, readFloat?_text x⟩⟩

/- A string is parsed as itself. -/
theorem Parsed.eq_string
    {s : String}
    {w : Json}
    (h : Parsed (.string s) w) :
    w = .string s := by
  generalize hString : Json.string s = j at h
  cases h with
  | same => rfl
  | number hNumber =>
      cases hString
      rcases number_kind hNumber with hKind | hKind <;> cases hKind
  | array => cases hString
  | object => cases hString

------------------------------------------------------------
-- Nesting
------------------------------------------------------------

theorem membersDepth_le_iff
    {members : List (String × Json)}
    {n : Nat} :
    Json.membersDepth members ≤ n ↔
      ∀ m ∈ members, m.2.depth ≤ n := by
  induction members with
  | nil => simp [Json.membersDepth]
  | cons m members ih =>
      rw [List.forall_mem_cons, Json.membersDepth, Nat.max_le, ih]

/- Merged members nest no deeper. -/
theorem membersDepth_mergeMembers_le
    (members : List (String × Json)) :
    Json.membersDepth (mergeMembers members) ≤
      Json.membersDepth members := by
  rw [membersDepth_le_iff]
  intro m hMem
  exact membersDepth_le_iff.mp (Nat.le_refl _) m
    (mem_of_mem_mergeMembers hMem)

mutual

/- A parsed document nests no deeper than its text. -/
theorem depth_le_of_parsed :
    ∀ {j w : Json},
      Parsed j w → LiteralsKept j.tokens → w.depth ≤ j.depth
  | _, _, .same _ _, _ => Nat.le_refl _
  | _, _, .number hNumber hParse, hKept => by
      rcases (Parsed.number hNumber hParse).literal_alike
        (literalsKept_literal.mp hKept) with ⟨lit', rfl, _⟩
      exact Nat.le_refl _
  | _, _, .array hItems, hKept => by
      have hDepth := itemsDepth_le_of_parsed hItems
        (literalsKept_array.mp hKept)
      exact Nat.succ_le_succ hDepth
  | _, _, .object hMembers, hKept => by
      have hDepth := membersDepth_le_of_parsed hMembers
        (literalsKept_object.mp hKept)
      exact Nat.succ_le_succ
        (Nat.le_trans (membersDepth_mergeMembers_le _) hDepth)

theorem itemsDepth_le_of_parsed :
    ∀ {items items' : List Json},
      ItemsParsed items items' →
      LiteralsKept (Json.itemTokens items) →
      Json.itemsDepth items' ≤ Json.itemsDepth items
  | _, _, .nil, _ => Nat.le_refl _
  | _, _, .cons hItem hItems, hKept => by
      rw [literalsKept_item] at hKept
      have hFirst := depth_le_of_parsed hItem hKept.1
      have hRest := itemsDepth_le_of_parsed hItems hKept.2
      rw [Json.itemsDepth, Json.itemsDepth]
      omega

theorem membersDepth_le_of_parsed :
    ∀ {members members' : List (String × Json)},
      MembersParsed members members' →
      LiteralsKept (Json.memberTokens members) →
      Json.membersDepth members' ≤ Json.membersDepth members
  | _, _, .nil, _ => Nat.le_refl _
  | _, _, .cons hValue hMembers, hKept => by
      rw [literalsKept_member] at hKept
      have hFirst := depth_le_of_parsed hValue hKept.1
      have hRest := membersDepth_le_of_parsed hMembers hKept.2
      rw [Json.membersDepth, Json.membersDepth]
      omega

end

------------------------------------------------------------
-- Merged Members
------------------------------------------------------------

/- A member denotes a tree of a carried field. -/
def MemberDenotes
    (t : NodeType)
    (m : String × Json)
    (value : String × Tree) : Prop :=
  m.1 = value.1 ∧
    ∃ f ∈ t.fields,
      f.carried = true ∧ f.key = m.1 ∧ Denotes f.shape m.2 value.2

theorem membersDenote_iff
    {t : NodeType}
    {members : List (String × Json)}
    {values : List (String × Tree)} :
    MembersDenote t members values ↔
      List.Forall₂ (MemberDenotes t) members values := by
  constructor
  · intro h
    induction members generalizing values with
    | nil =>
        cases h
        exact .nil
    | cons m members ih =>
        cases h with
        | cons hField hCarried hValue hMembers =>
            exact .cons ⟨rfl, _, hField, hCarried, rfl, hValue⟩
              (ih hMembers)
  · intro h
    induction h with
    | nil => exact .nil
    | @cons m value _ _ hFirst _ ih =>
        rcases m with ⟨key, j⟩
        rcases value with ⟨key', v⟩
        rcases hFirst with
          ⟨hKeys, f, hField, hCarried, hKey, hValue⟩
        cases hKeys
        cases hKey
        exact .cons hField hCarried hValue ih

/- Merged members denote the merged values. -/
theorem membersDenote_merge
    {t : NodeType}
    {members : List (String × Json)}
    {values : List (String × Tree)}
    (h : MembersDenote t members values) :
    MembersDenote t (mergeMembers members) (mergeMembers values) := by
  rw [membersDenote_iff] at h ⊢
  exact mergeMembers_related (fun hBoth => hBoth.1) h

/- Merging leaves every slot as it is. -/
theorem slotHolds_merge
    {values : List (String × Tree)}
    {f : Field}
    {o : Option Tree}
    (h : SlotHolds values f o) :
    SlotHolds (mergeMembers values) f o := by
  refine slotHolds_of_lookup ?_ h
  rw [lookup_reverse_of_nodup (nodup_mergeMembers values),
    lookup_mergeMembers]

theorem slots_merge
    {values : List (String × Tree)}
    {fields : List Field}
    {slots : List (Option Tree)}
    (h : List.Forall₂ (SlotHolds values) fields slots) :
    List.Forall₂ (SlotHolds (mergeMembers values)) fields slots :=
  h.imp fun _ _ => slotHolds_merge

/- No field of a node type has the key of its tag. -/
theorem tag_ne_key
    {t : NodeType}
    {tag : String}
    (hTag : t.category.tag? = some tag)
    {f : Field}
    (hField : f ∈ t.fields) :
    f.key ≠ tag := by
  have hAll :
      ∀ g ∈ t.fields, some g.key ≠ t.category.tag? := by
    cases t <;> decide
  intro hEq
  exact hAll f hField (by rw [hEq, hTag])

theorem tag_not_mem_keysOf
    {t : NodeType}
    {tag : String}
    {members : List (String × Json)}
    {values : List (String × Tree)}
    (hTag : t.category.tag? = some tag)
    (h : MembersDenote t members values) :
    tag ∉ keysOf members := by
  induction members generalizing values with
  | nil => exact nofun
  | cons m members ih =>
      cases h with
      | cons hField _ _ hMembers =>
          intro hMem
          rcases List.mem_cons.mp hMem with hEq | hRest
          · exact tag_ne_key hTag hField hEq.symm
          · exact ih hMembers hRest

------------------------------------------------------------
-- What a Parsed Document Denotes
------------------------------------------------------------

theorem Parsed.eq_array
    {items : List Json}
    {w : Json}
    (h : Parsed (.array items) w) :
    ∃ items', w = .array items' ∧ ItemsParsed items items' := by
  cases h with
  | array hItems => exact ⟨_, rfl, hItems⟩

theorem Parsed.eq_object
    {members : List (String × Json)}
    {w : Json}
    (h : Parsed (.object members) w) :
    ∃ members',
      w = .object (mergeMembers members') ∧
        MembersParsed members members' := by
  cases h with
  | object hMembers => exact ⟨_, rfl, hMembers⟩

theorem MembersParsed.ne_nil
    {members members' : List (String × Json)}
    (h : MembersParsed members members')
    (hMembers : members ≠ []) :
    members' ≠ [] := by
  cases h with
  | nil => exact absurd rfl hMembers
  | cons => exact List.cons_ne_nil _ _

/- Alike literals denote the same. -/
theorem literalDenotes_of_alike
    {type : ScalarType}
    {lit lit' : Literal}
    {v : Tree}
    (hAlike : (Token.literal lit).Alike (.literal lit'))
    (h : LiteralDenotes type lit v) :
    LiteralDenotes type lit' v := by
  rw [← ScalarType.ofToken_literal_iff] at h ⊢
  rw [← hAlike.ofToken_eq]
  exact h

/-
  A tag that comes first is parsed as it is and stays first,
  since no other member has its key.
-/
theorem tagged_of_parsed
    {t : NodeType}
    {tag : String}
    {members : List (String × Json)}
    {values : List (String × Tree)}
    (hTag : t.category.tag? = some tag)
    (hValues : MembersDenote t members values) :
    mergeMembers ((tag, .string t.name) :: members) =
      (tag, .string t.name) :: mergeMembers members :=
  mergeMembers_cons_of_not_mem (tag_not_mem_keysOf hTag hValues)

mutual

/- What a text denotes, the parsed document denotes too. -/
theorem denotes_of_parsed :
    ∀ {shape : Shape} {j w : Json} {v : Tree},
      Denotes shape j v →
      Parsed j w →
      LiteralsKept j.tokens →
      Denotes shape w v
  | _, _, _, _, .scalar h, hParsed, hKept => by
      rcases hParsed.literal_alike (literalsKept_literal.mp hKept)
        with ⟨lit', rfl, hAlike⟩
      exact .scalar (literalDenotes_of_alike hAlike h)
  | _, _, _, _, .list hItems, hParsed, hKept => by
      rcases hParsed.eq_array with ⟨items', rfl, hItems'⟩
      exact .list (itemsDenote_of_parsed hItems hItems'
        (literalsKept_array.mp hKept))
  | _, _, _, _, .zero hOther, hParsed, _ => by
      rcases hParsed.eq_object with ⟨_, rfl, hMembers⟩
      cases hMembers
      exact .zero hOther
  | _, _, _, _, .node hOther hNe hValues hSlots, hParsed, hKept => by
      rcases hParsed.eq_object with ⟨members', rfl, hMembers⟩
      have hDenote := membersDenote_of_parsed hValues hMembers
        (literalsKept_object.mp hKept)
      exact .node hOther (mergeMembers_ne_nil (hMembers.ne_nil hNe))
        (membersDenote_merge hDenote) (slots_merge hSlots)
  | _, _, _, _, .tagged hTag hValues hSlots, hParsed, hKept => by
      rcases hParsed.eq_object with ⟨_, rfl, hMembers⟩
      cases hMembers with
      | cons hFirst hRest =>
          rw [literalsKept_object, literalsKept_member] at hKept
          have hDenote :=
            membersDenote_of_parsed hValues hRest hKept.2
          rw [hFirst.eq_string, tagged_of_parsed hTag hDenote]
          exact .tagged hTag (membersDenote_merge hDenote)
            (slots_merge hSlots)
  | _, _, _, _, .variant hSum hValues hSlots, hParsed, hKept => by
      rcases hParsed.eq_object with ⟨_, rfl, hMembers⟩
      cases hMembers with
      | cons hFirst hRest =>
          rw [literalsKept_object, literalsKept_member] at hKept
          have hDenote :=
            membersDenote_of_parsed hValues hRest hKept.2
          have hTag := NodeSum.tag?_of_category hSum
          rw [hFirst.eq_string, tagged_of_parsed hTag hDenote]
          exact .variant hSum (membersDenote_merge hDenote)
            (slots_merge hSlots)

theorem itemsDenote_of_parsed :
    ∀ {elem : Shape} {items items' : List Json}
      {trees : List Tree},
      ItemsDenote elem items trees →
      ItemsParsed items items' →
      LiteralsKept (Json.itemTokens items) →
      ItemsDenote elem items' trees
  | _, _, _, _, .nil, .nil, _ => .nil
  | _, _, _, _, .cons hItem hItems, .cons hFirst hRest, hKept => by
      rw [literalsKept_item] at hKept
      exact .cons (denotes_of_parsed hItem hFirst hKept.1)
        (itemsDenote_of_parsed hItems hRest hKept.2)

theorem membersDenote_of_parsed :
    ∀ {t : NodeType} {members members' : List (String × Json)}
      {values : List (String × Tree)},
      MembersDenote t members values →
      MembersParsed members members' →
      LiteralsKept (Json.memberTokens members) →
      MembersDenote t members' values
  | _, _, _, _, .nil, .nil, _ => .nil
  | _, _, _, _, .cons hField hCarried hValue hMembers,
      .cons hFirst hRest, hKept => by
      rw [literalsKept_member] at hKept
      exact .cons hField hCarried
        (denotes_of_parsed hValue hFirst hKept.1)
        (membersDenote_of_parsed hMembers hRest hKept.2)

end

------------------------------------------------------------
-- Documents Without Repeated Keys
------------------------------------------------------------

namespace Json

mutual

/- No object in a document repeats a key. -/
def KeysDiffer : Json → Prop
  | .literal _ => True
  | .array items => ItemsKeysDiffer items
  | .object members =>
      (keysOf members).Nodup ∧ MembersKeysDiffer members

/- No object in an element of an array repeats a key. -/
def ItemsKeysDiffer : List Json → Prop
  | [] => True
  | item :: items => item.KeysDiffer ∧ ItemsKeysDiffer items

/- No object in a value of a member repeats a key. -/
def MembersKeysDiffer : List (String × Json) → Prop
  | [] => True
  | (_, value) :: members =>
      value.KeysDiffer ∧ MembersKeysDiffer members

end

end Json

theorem MembersParsed.keysOf_eq
    {members members' : List (String × Json)}
    (h : MembersParsed members members') :
    keysOf members' = keysOf members := by
  induction members generalizing members' with
  | nil =>
      cases h
      rfl
  | cons m members ih =>
      cases h with
      | cons _ hMembers =>
          exact congrArg (_ :: ·) (ih hMembers)

mutual

/- Where no key repeats, the parsed document has alike tokens. -/
theorem tokens_alike_of_parsed :
    ∀ {j w : Json},
      Parsed j w →
      LiteralsKept j.tokens →
      j.KeysDiffer →
      List.Forall₂ Token.Alike j.tokens w.tokens
  | _, _, .same _ _, _, _ => .cons (.refl _) .nil
  | _, _, .number hNumber hParse, hKept, _ => by
      rcases (Parsed.number hNumber hParse).literal_alike
        (literalsKept_literal.mp hKept) with ⟨lit', rfl, hAlike⟩
      exact .cons hAlike .nil
  | _, _, .array hItems, hKept, hKeys => by
      have hInner := itemTokens_alike_of_parsed hItems
        (literalsKept_array.mp hKept) hKeys
      rw [Json.tokens, Json.tokens]
      exact .cons (.refl _)
        (List.rel_append hInner (.cons (.refl _) .nil))
  | _, _, .object hMembers, hKept, hKeys => by
      have hInner := memberTokens_alike_of_parsed hMembers
        (literalsKept_object.mp hKept) hKeys.2
      have hNodup := hKeys.1
      rw [← hMembers.keysOf_eq] at hNodup
      rw [mergeMembers_of_nodup hNodup, Json.tokens, Json.tokens]
      exact .cons (.refl _)
        (List.rel_append hInner (.cons (.refl _) .nil))

theorem itemTokens_alike_of_parsed :
    ∀ {items items' : List Json},
      ItemsParsed items items' →
      LiteralsKept (Json.itemTokens items) →
      Json.ItemsKeysDiffer items →
      List.Forall₂ Token.Alike (Json.itemTokens items)
        (Json.itemTokens items')
  | _, _, .nil, _, _ => .nil
  | _, _, .cons hItem hItems, hKept, hKeys => by
      rw [literalsKept_item] at hKept
      rw [Json.itemTokens, Json.itemTokens]
      exact List.rel_append
        (tokens_alike_of_parsed hItem hKept.1 hKeys.1)
        (itemTokens_alike_of_parsed hItems hKept.2 hKeys.2)

theorem memberTokens_alike_of_parsed :
    ∀ {members members' : List (String × Json)},
      MembersParsed members members' →
      LiteralsKept (Json.memberTokens members) →
      Json.MembersKeysDiffer members →
      List.Forall₂ Token.Alike (Json.memberTokens members)
        (Json.memberTokens members')
  | _, _, .nil, _, _ => .nil
  | _, _, .cons hValue hMembers, hKept, hKeys => by
      rw [literalsKept_member] at hKept
      rw [Json.memberTokens, Json.memberTokens]
      exact .cons (.refl _) (List.rel_append
        (tokens_alike_of_parsed hValue hKept.1 hKeys.1)
        (memberTokens_alike_of_parsed hMembers hKept.2 hKeys.2))

end

------------------------------------------------------------
-- Both Sources
------------------------------------------------------------

/-
  A text that is parsed is a document.  Where its numbers are
  kept, what decoding the text gives, decoding the parsed
  document gives too, at every limit of nesting.  Where no key
  repeats besides, both give the same result, and an error of
  one is that of the other, at the same path, up to the position
  of bad input.
-/
theorem decodeText_agrees_with_decodeParsed
    (bytes : List UInt8)
    (w : Json)
    (hParse : Json.parse bytes = .ok w) :
    (∃ j, Document bytes j) ∧
    ∀ j, Document bytes j →
      LiteralsKept j.tokens →
      ∀ (shape : Shape) (limit : Nat),
        (∀ v,
          decodeText shape bytes limit = .ok v →
            decodeParsed shape w limit = .ok v) ∧
        (j.KeysDiffer →
          ResultsAlike (decodeText shape bytes limit)
            (decodeParsed shape w limit)) := by
  rcases document_of_parse hParse with ⟨j, hDocument, hParsed⟩
  refine ⟨⟨j, hDocument⟩, ?_⟩
  intro j' hDocument' hKept shape limit
  cases hDocument.unique hDocument'
  have hText := Scanner.stream_tells limit hDocument
  have hWalk := ValueWalk.stream_tells w limit
  constructor
  · intro v hDecode
    rcases (decodeDocument_eq_ok_iff hText).mp hDecode with
      ⟨hDepth, hDenotes⟩
    exact (decodeDocument_eq_ok_iff hWalk).mpr
      ⟨Nat.le_trans (depth_le_of_parsed hParsed hKept) hDepth,
        denotes_of_parsed hDenotes hParsed hKept⟩
  · intro hKeys
    exact decodeDocument_alike shape hText hWalk
      (tokens_alike_of_parsed hParsed hKept hKeys)

/- One and a half. -/
def oneAndHalf : Binary64 :=
  ⟨false, 3 * 2 ^ 51, -52, by decide, by decide, by decide,
    by decide⟩

/- A literal with two values, the last one with a needless zero. -/
def repeatedValue : Json :=
  .object
    [("expression_name", .string "FloatLit"),
     ("value", .float (Binary64.zero true)),
     ("value", .literal ⟨.float, "1.50"⟩)]

/- The text of the literal. -/
def repeatedValueText : List UInt8 :=
  repeatedValue.compact.toUTF8.toList

/- What the text is parsed as. -/
def mergedValue : Json :=
  .object
    [("expression_name", .string "FloatLit"),
     ("value", .float oneAndHalf)]

theorem literal_mem_repeatedValue
    {lit : Literal}
    (h : .literal lit ∈ repeatedValue.tokens) :
    lit = ⟨.string, "FloatLit"⟩ ∨
      lit = ⟨.float, (Binary64.zero true).text⟩ ∨
      lit = ⟨.float, "1.50"⟩ := by
  simpa [repeatedValue, Json.tokens, Json.memberTokens,
    Json.string, Json.float] using h

theorem number_oneAndHalf :
    Number (utf8 "1.50".toList) .float := by
  have hDigits :
      ∀ bytes : List UInt8, bytes ≠ [] →
        bytes.all Lexeme.isDigitByte = true → Digits bytes := by
    intro bytes hNil hAll
    exact ⟨hNil, fun b hMem =>
      Lexeme.isDigitByte_iff.mp (List.all_eq_true.mp hAll b hMem)⟩
  have hOne := hDigits [0x31] (by simp) rfl
  have hFifty := hDigits [0x35, 0x30] (by simp) rfl
  have hNumber :=
    Number.mk (.inl rfl) (.digits hOne (by simp)) (.digits hFifty)
      .none
  exact hNumber

/- A text is parsed as the tree whose tokens come out. -/
theorem parse_of_tokens
    {bytes : List UInt8}
    {w : Json}
    (h : (Json.parse bytes).map Json.tokens = .ok w.tokens) :
    Json.parse bytes = .ok w := by
  rcases Action.except_map_eq_ok_iff.mp h with
    ⟨w', hParse, hTokens⟩
  rw [hParse, Json.tokens_injective hTokens]

/- Of both values the last one is decoded, from either source. -/
theorem decode_repeatedValue :
    Json.parse repeatedValueText = .ok mergedValue ∧
    Document repeatedValueText repeatedValue ∧
    LiteralsKept repeatedValue.tokens ∧
    decodeText (.sum .expr) repeatedValueText 1 =
      .ok (.node .floatLit [some (.float oneAndHalf)]) ∧
    decodeParsed (.sum .expr) mergedValue 1 =
      .ok (.node .floatLit [some (.float oneAndHalf)]) := by
  have hSpelled : Json.Spelled repeatedValue.tokens := by
    intro lit hMem
    rcases literal_mem_repeatedValue hMem with rfl | rfl | rfl
    · exact Json.scalar_string _
    · exact .number (number_text _)
    · exact .number number_oneAndHalf
  have hKept : LiteralsKept repeatedValue.tokens := by
    intro lit hMem
    rcases literal_mem_repeatedValue hMem with rfl | rfl | rfl
    · trivial
    · exact ⟨_, parse_of_tokens (by decide +kernel),
        readFloat?_text _⟩
    · exact ⟨oneAndHalf, parse_of_tokens (by decide +kernel), rfl⟩
  have hParse : Json.parse repeatedValueText = .ok mergedValue := by
    rw [repeatedValueText, toUTF8_toList, Json.compact,
      String.toList_ofList]
    exact parse_of_tokens (by decide +kernel)
  have hDocument : Document repeatedValueText repeatedValue :=
    Json.document_compact repeatedValue hSpelled
  have hField :
      Field.required "value" (.scalar .float64) ∈
        NodeType.floatLit.fields := by
    decide
  have hDenotes :
      Denotes (.sum .expr) repeatedValue
        (.node .floatLit [some (.float oneAndHalf)]) :=
    .variant rfl
      (.cons hField rfl (.scalar (.float (readFloat?_text _)))
        (.cons hField rfl
          (.scalar (.float (x := oneAndHalf) rfl)) .nil))
      (.cons (.last rfl (List.singleton_append).symm
        (List.forall_mem_nil _)) .nil)
  have hText :
      decodeText (.sum .expr) repeatedValueText 1 =
        .ok (.node .floatLit [some (.float oneAndHalf)]) :=
    (decodeDocument_eq_ok_iff
      (Scanner.stream_tells 1 hDocument)).mpr
        ⟨Nat.le_refl _, hDenotes⟩
  have hAgree :=
    (decodeText_agrees_with_decodeParsed repeatedValueText
      mergedValue hParse).2 repeatedValue hDocument hKept
        (.sum .expr) 1
  exact ⟨hParse, hDocument, hKept, hText, hAgree.1 _ hText⟩

end TreeWire
