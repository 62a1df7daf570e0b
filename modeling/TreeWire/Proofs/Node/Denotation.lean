import Mathlib.Data.List.Forall2
import TreeWire.Proofs.Node.TreeDecoding

/-
  What documents denote: the meaning of a document as a value
  of a shape, told without any decoder.

  `Denotes shape j v` says that the document `j` conforms to
  `shape` and stands for the tree `v`.  A literal has exactly
  its own kind.  An object has only keys of carried fields,
  every occurrence of a key conforms to its field, the last one
  counts, and a field without an occurrence is missing, has its
  default, or is an error.  The empty object is the default of
  a node outside the sums.  A node of a sum names its type in
  its first member.

  Main statements:
    * `Json.decodeAs_eq_ok_iff`
    * `decode_eq_ok_iff`
    * `decode_document_then_rest`
-/

namespace TreeWire

------------------------------------------------------------
-- Meaning of Documents
------------------------------------------------------------

/- A literal stands for a tree of a scalar type. -/
inductive LiteralDenotes : ScalarType → Literal → Tree → Prop where
  | text
      (s : String) :
      LiteralDenotes .string ⟨.string, s⟩ (.text s)
  | int
      {s : String}
      {n : Int64}
      (h : readInt64? s = some n) :
      LiteralDenotes .int64 ⟨.int, s⟩ (.int n)
  | float
      {s : String}
      {x : Binary64}
      (h : readFloat? s = some x) :
      LiteralDenotes .float64 ⟨.float, s⟩ (.float x)
  | flag
      (s : String) :
      LiteralDenotes .bool ⟨.bool, s⟩ (.flag (s == "true"))

/- No member with a value for a field. -/
def Field.AbsentFrom
    (f : Field)
    (values : List (String × Tree)) : Prop :=
  f.carried = false ∨ ∀ m ∈ values, m.1 ≠ f.key

/-
  The slot of a field, given the values of the members of an
  object in order.
-/
inductive SlotHolds
    (values : List (String × Tree))
    (f : Field) :
    Option Tree → Prop where
  | last
      {before after : List (String × Tree)}
      {value : Tree}
      (hCarried : f.carried = true)
      (hSplit : values = before ++ (f.key, value) :: after)
      (hLast : ∀ m ∈ after, m.1 ≠ f.key) :
      SlotHolds values f (some value)
  | missing
      (hAbsent : f.AbsentFrom values)
      (hPresence : f.presence = .optional) :
      SlotHolds values f none
  | default
      (hAbsent : f.AbsentFrom values)
      (hPresence : f.presence = .defaulted) :
      SlotHolds values f (f.shape.zero? NodeType.zero)

mutual

/- A document conforms to a shape and stands for a tree. -/
inductive Denotes : Shape → Json → Tree → Prop where
  | scalar
      {type : ScalarType}
      {lit : Literal}
      {v : Tree}
      (h : LiteralDenotes type lit v) :
      Denotes (.scalar type) (.literal lit) v
  | list
      {elem : Shape}
      {items : List Json}
      {trees : List Tree}
      (h : ItemsDenote elem items trees) :
      Denotes (.list elem) (.array items) (.list trees)
  | zero
      {t : NodeType}
      (hOther : t.category = .other) :
      Denotes (.node t) (.object []) t.zero
  | node
      {t : NodeType}
      {members : List (String × Json)}
      {values : List (String × Tree)}
      {slots : List (Option Tree)}
      (hOther : t.category = .other)
      (hMembers : members ≠ [])
      (hValues : MembersDenote t members values)
      (hSlots : List.Forall₂ (SlotHolds values) t.fields slots) :
      Denotes (.node t) (.object members) (.node t slots)
  | tagged
      {t : NodeType}
      {tag : String}
      {members : List (String × Json)}
      {values : List (String × Tree)}
      {slots : List (Option Tree)}
      (hTag : t.category.tag? = some tag)
      (hValues : MembersDenote t members values)
      (hSlots : List.Forall₂ (SlotHolds values) t.fields slots) :
      Denotes (.node t)
        (.object ((tag, .string t.name) :: members))
        (.node t slots)
  | variant
      {t : NodeType}
      {sum : NodeSum}
      {members : List (String × Json)}
      {values : List (String × Tree)}
      {slots : List (Option Tree)}
      (hSum : t.category = sum.category)
      (hValues : MembersDenote t members values)
      (hSlots : List.Forall₂ (SlotHolds values) t.fields slots) :
      Denotes (.sum sum)
        (.object ((sum.tag, .string t.name) :: members))
        (.node t slots)

/- Elements of an array stand for trees of one shape. -/
inductive ItemsDenote : Shape → List Json → List Tree → Prop where
  | nil
      {elem : Shape} :
      ItemsDenote elem [] []
  | cons
      {elem : Shape}
      {item : Json}
      {items : List Json}
      {v : Tree}
      {trees : List Tree}
      (hItem : Denotes elem item v)
      (hItems : ItemsDenote elem items trees) :
      ItemsDenote elem (item :: items) (v :: trees)

/-
  Every member of an object has the key of a carried field and
  stands for a tree of that field.
-/
inductive MembersDenote :
    NodeType →
    List (String × Json) →
    List (String × Tree) → Prop where
  | nil
      {t : NodeType} :
      MembersDenote t [] []
  | cons
      {t : NodeType}
      {f : Field}
      {value : Json}
      {v : Tree}
      {members : List (String × Json)}
      {values : List (String × Tree)}
      (hField : f ∈ t.fields)
      (hCarried : f.carried = true)
      (hValue : Denotes f.shape value v)
      (hMembers : MembersDenote t members values) :
      MembersDenote t
        ((f.key, value) :: members) ((f.key, v) :: values)

end

------------------------------------------------------------
-- Names and Keys
------------------------------------------------------------

namespace NodeType

theorem ofName?_name
    (t : NodeType) :
    ofName? t.name = some t := by
  cases t <;> rfl

/- Node types have different names. -/
theorem name_injective
    {t u : NodeType}
    (h : t.name = u.name) :
    t = u := by
  have hName := ofName?_name t
  rw [h, ofName?_name u] at hName
  exact (Option.some.inj hName).symm

theorem mem_all
    (t : NodeType) :
    t ∈ all := by
  cases t <;> decide

/- The carried fields of a node type have different keys. -/
theorem field?_key_of_mem
    {t : NodeType}
    {f : Field}
    (hField : f ∈ t.fields)
    (hCarried : f.carried = true) :
    t.field? f.key = some f := by
  have hAll :
      ∀ g ∈ t.fields, g.carried = true → t.field? g.key = some g := by
    cases t <;> decide
  exact hAll f hField hCarried

theorem field?_eq_some_iff
    {t : NodeType}
    {key : String}
    {f : Field} :
    t.field? key = some f ↔
      f ∈ t.fields ∧ f.carried = true ∧ f.key = key := by
  constructor
  · intro h
    have hMem := List.mem_of_find?_eq_some h
    have hTest := List.find?_some h
    simp only [Bool.and_eq_true, decide_eq_true_eq] at hTest
    exact ⟨hMem, hTest.1, hTest.2⟩
  · intro hParts
    rcases hParts with ⟨hMem, hCarried, rfl⟩
    exact field?_key_of_mem hMem hCarried

theorem category_eq_other_iff
    {t : NodeType} :
    t.category.tag? = none ↔ t.category = .other := by
  cases t.category <;> simp [Category.tag?]

end NodeType

namespace NodeSum

theorem tag?_of_category
    {sum : NodeSum}
    {t : NodeType}
    (h : t.category = sum.category) :
    t.category.tag? = some sum.tag := by
  rw [h]
  cases sum <;> rfl

theorem variant?_eq_some_iff
    {sum : NodeSum}
    {name : String}
    {t : NodeType} :
    sum.variant? name = some t ↔
      t.category = sum.category ∧ t.name = name := by
  constructor
  · intro h
    have hTest := List.find?_some h
    simpa only [Bool.and_eq_true, decide_eq_true_eq] using hTest
  · intro hParts
    rcases hParts with ⟨hCategory, rfl⟩
    cases hFound : sum.variant? t.name with
    | none =>
        have hNone :=
          List.find?_eq_none.mp hFound t t.mem_all
        simp [hCategory] at hNone
    | some u =>
        have hTest := List.find?_some hFound
        simp only [Bool.and_eq_true, decide_eq_true_eq] at hTest
        rw [NodeType.name_injective hTest.2]

end NodeSum

------------------------------------------------------------
-- Slots
------------------------------------------------------------

/- Where the latest member stands first, a key finds the last. -/
theorem lookup_reverse_eq_some_iff
    {values : List (String × Tree)}
    {key : String}
    {v : Tree} :
    values.reverse.lookup key = some v ↔
      ∃ before after,
        values = before ++ (key, v) :: after ∧
          ∀ m ∈ after, m.1 ≠ key := by
  rw [List.lookup_eq_some_iff]
  constructor
  · intro hParts
    rcases hParts with ⟨newer, older, hSplit, hNewer⟩
    refine ⟨older.reverse, newer.reverse, ?_, ?_⟩
    · simpa using congrArg List.reverse hSplit
    · intro m hMem hKey
      have := hNewer m (by simpa using hMem)
      simp [hKey] at this
  · intro hParts
    rcases hParts with ⟨before, after, rfl, hLast⟩
    refine ⟨after.reverse, before.reverse, by simp, ?_⟩
    intro m hMem
    have := hLast m (by simpa using hMem)
    simpa using fun hKey => this hKey.symm

theorem lookup_reverse_eq_none_iff
    {values : List (String × Tree)}
    {key : String} :
    values.reverse.lookup key = none ↔
      ∀ m ∈ values, m.1 ≠ key := by
  rw [List.lookup_eq_none_iff]
  constructor
  · intro h m hMem hKey
    have := h m (by simpa using hMem)
    simp [hKey] at this
  · intro h m hMem
    have := h m (by simpa using hMem)
    simpa using fun hKey => this hKey.symm

/- The value found for a field, if there is one. -/
theorem found_eq_none_iff
    {values : List (String × Tree)}
    {f : Field} :
    (if f.carried then values.reverse.lookup f.key else none) =
        none ↔
      f.AbsentFrom values := by
  unfold Field.AbsentFrom
  cases hCarried : f.carried with
  | false => simp
  | true => simpa using lookup_reverse_eq_none_iff

theorem found_eq_some_iff
    {values : List (String × Tree)}
    {f : Field}
    {v : Tree} :
    (if f.carried then values.reverse.lookup f.key else none) =
        some v ↔
      f.carried = true ∧
        ∃ before after,
          values = before ++ (f.key, v) :: after ∧
            ∀ m ∈ after, m.1 ≠ f.key := by
  cases hCarried : f.carried with
  | false => simp
  | true => simpa using lookup_reverse_eq_some_iff

theorem slotHolds_of_absent
    {values : List (String × Tree)}
    {f : Field}
    {o : Option Tree}
    (hAbsent : f.AbsentFrom values) :
    SlotHolds values f o ↔
      (f.presence = .optional ∧ o = none) ∨
        (f.presence = .defaulted ∧
          o = f.shape.zero? NodeType.zero) := by
  constructor
  · intro h
    cases h with
    | last hCarried hSplit hLast =>
        have hFound := found_eq_some_iff.mpr
          ⟨hCarried, _, _, hSplit, hLast⟩
        rw [found_eq_none_iff.mpr hAbsent] at hFound
        cases hFound
    | missing _ hPresence => exact Or.inl ⟨hPresence, rfl⟩
    | default _ hPresence => exact Or.inr ⟨hPresence, rfl⟩
  · intro hCases
    rcases hCases with ⟨hPresence, rfl⟩ | ⟨hPresence, rfl⟩
    · exact .missing hAbsent hPresence
    · exact .default hAbsent hPresence

namespace NodeType

theorem slot_eq_ok_iff
    {t : NodeType}
    {values : List (String × Tree)}
    {f : Field}
    {o : Option Tree} :
    t.slot values.reverse f = .ok o ↔ SlotHolds values f o := by
  unfold slot
  split
  · rename_i v hFound
    rcases found_eq_some_iff.mp hFound with
      ⟨hCarried, before, after, hSplit, hLast⟩
    constructor
    · intro h
      cases h
      exact .last hCarried hSplit hLast
    · intro h
      have hPresent : ¬ f.AbsentFrom values := by
        rw [← found_eq_none_iff, hFound]
        simp
      cases h with
      | last hCarried hSplit hLast =>
          have hSame := found_eq_some_iff.mpr
            ⟨hCarried, _, _, hSplit, hLast⟩
          rw [hFound] at hSame
          cases hSame
          rfl
      | missing hAbsent => exact absurd hAbsent hPresent
      | default hAbsent => exact absurd hAbsent hPresent
  · rename_i hFound
    rw [slotHolds_of_absent (found_eq_none_iff.mp hFound)]
    cases f.presence <;> simp [eq_comm]

theorem slots_eq_ok_iff
    {t : NodeType}
    {values : List (String × Tree)}
    {fields : List Field}
    {os : List (Option Tree)} :
    t.slots values.reverse fields = .ok os ↔
      List.Forall₂ (SlotHolds values) fields os := by
  induction fields generalizing os with
  | nil =>
      rw [slots, Except.ok.injEq, List.forall₂_nil_left_iff]
      exact eq_comm
  | cons f fields ih =>
      rw [slots, Action.except_bind_eq_ok_iff,
        List.forall₂_cons_left_iff]
      simp only [Action.except_bind_eq_ok_iff, slot_eq_ok_iff, ih]
      constructor
      · intro hParts
        rcases hParts with ⟨o, hFirst, rest, hRest, hEq⟩
        cases hEq
        exact ⟨o, rest, hFirst, hRest, rfl⟩
      · intro hParts
        rcases hParts with ⟨o, rest, hFirst, hRest, rfl⟩
        exact ⟨o, hFirst, rest, hRest, rfl⟩

theorem ofMembers_eq_ok_iff
    {t : NodeType}
    {values : List (String × Tree)}
    {v : Tree} :
    t.ofMembers values.reverse = .ok v ↔
      ∃ slots,
        List.Forall₂ (SlotHolds values) t.fields slots ∧
          .node t slots = v := by
  rw [ofMembers, Action.except_map_eq_ok_iff]
  simp only [slots_eq_ok_iff]

end NodeType

/- Values that find the same for a field give it one slot. -/
theorem slotHolds_of_lookup
    {values values' : List (String × Tree)}
    {f : Field}
    {o : Option Tree}
    (hLookup :
      values'.reverse.lookup f.key = values.reverse.lookup f.key)
    (h : SlotHolds values f o) :
    SlotHolds values' f o := by
  -- The slot is the same for every node type.
  rw [← NodeType.slot_eq_ok_iff (t := .ident)] at h ⊢
  unfold NodeType.slot at h ⊢
  rwa [hLookup]

------------------------------------------------------------
-- Literals
------------------------------------------------------------

theorem Token.literalText_eq_ok_iff
    {lit : Literal}
    {kind : LiteralKind}
    {text : String} :
    (Token.literal lit).literalText kind = .ok text ↔
      lit = ⟨kind, text⟩ := by
  rcases lit with ⟨kind', text'⟩
  simp only [literalText, Literal.mk.injEq]
  split <;> simp_all

theorem ScalarType.ofToken_literal_iff
    {type : ScalarType}
    {lit : Literal}
    {v : Tree} :
    type.ofToken (.literal lit) = .ok v ↔
      LiteralDenotes type lit v := by
  cases type with
  | string =>
      rw [ofToken, Action.except_map_eq_ok_iff]
      simp only [Token.readString, Token.literalText_eq_ok_iff]
      constructor
      · intro hParts
        rcases hParts with ⟨s, rfl, rfl⟩
        exact .text s
      · intro hParts
        rcases hParts with ⟨s⟩
        exact ⟨s, rfl, rfl⟩
  | int64 =>
      rw [ofToken, Action.except_map_eq_ok_iff]
      constructor
      · intro hParts
        rcases hParts with ⟨n, hRead, rfl⟩
        unfold Token.readInt at hRead
        split at hRead
        · cases hRead
        · rename_i text hText
          split at hRead
          · rename_i m hInt
            cases hRead
            rw [Token.literalText_eq_ok_iff.mp hText]
            exact .int hInt
          · cases hRead
      · intro hCases
        rcases hCases with _ | h
        exact ⟨_, by simp [Token.readInt, Token.literalText, h], rfl⟩
  | float64 =>
      rw [ofToken, Action.except_map_eq_ok_iff]
      constructor
      · intro hParts
        rcases hParts with ⟨x, hRead, rfl⟩
        unfold Token.readFloat at hRead
        split at hRead
        · cases hRead
        · rename_i text hText
          split at hRead
          · rename_i y hFloat
            cases hRead
            rw [Token.literalText_eq_ok_iff.mp hText]
            exact .float hFloat
          · cases hRead
      · intro hCases
        rcases hCases with _ | _ | h
        exact ⟨_, by simp [Token.readFloat, Token.literalText, h], rfl⟩
  | bool =>
      rw [ofToken, Action.except_map_eq_ok_iff]
      constructor
      · intro hParts
        rcases hParts with ⟨b, hRead, rfl⟩
        unfold Token.readBool at hRead
        split at hRead
        · cases hRead
        · rename_i text hText
          cases hRead
          rw [Token.literalText_eq_ok_iff.mp hText]
          exact .flag text
      · intro hParts
        rcases hParts with ⟨s⟩
        exact ⟨_, by simp [Token.readBool, Token.literalText], rfl⟩

------------------------------------------------------------
-- Decoded Trees Are Denoted Trees
------------------------------------------------------------

namespace Json

theorem readString_head_eq_ok_iff
    {j : Json}
    {name : String} :
    j.head.readString = .ok name ↔ j = .string name := by
  cases j with
  | literal lit =>
      rw [head, Token.readString, Token.literalText_eq_ok_iff]
      simp [Json.string]
  | array items => simp [head, Token.readString,
      Token.literalText, Json.string]
  | object members => simp [head, Token.readString,
      Token.literalText, Json.string]

theorem chooseNode_eq_ok_iff
    {t u : NodeType}
    {name : String} :
    chooseNode t name = .ok u ↔ t = u ∧ name = t.name := by
  unfold chooseNode
  split <;> simp_all

theorem chooseVariant_eq_ok_iff
    {sum : NodeSum}
    {name : String}
    {t : NodeType} :
    chooseVariant sum name = .ok t ↔
      t.category = sum.category ∧ name = t.name := by
  rw [eq_comm (a := name), ← NodeSum.variant?_eq_some_iff]
  unfold chooseVariant
  split <;> simp_all

/- The tag, and a node of the type that it names. -/
theorem decodeTagged_eq_ok_iff
    {members : List (String × Json)}
    {tag : String}
    {choose : String → Except DecodeError NodeType}
    {v : Tree} :
    decodeTagged members tag choose = .ok v ↔
      ∃ name t rest done,
        members = (tag, .string name) :: rest ∧
          choose name = .ok t ∧
          decodeMembers rest t [] = .ok done ∧
          t.ofMembers done = .ok v := by
  cases members with
  | nil => simp [decodeTagged]
  | cons m members =>
      rcases m with ⟨key, value⟩
      rw [decodeTagged]
      by_cases hTag : key = tag
      · subst hTag
        simp only [if_true, Action.except_bind_eq_ok_iff,
          readString_head_eq_ok_iff]
        constructor
        · intro hParts
          rcases hParts with
            ⟨name, rfl, t, hChoose, done, hMembers, hNode⟩
          exact ⟨name, t, members, done, rfl, hChoose,
            hMembers, hNode⟩
        · intro hParts
          rcases hParts with
            ⟨name, t, rest, done, hEq, hChoose, hMembers, hNode⟩
          cases hEq
          exact ⟨name, rfl, t, hChoose, done, hMembers, hNode⟩
      · rw [if_neg hTag]
        simp [hTag]

/-
  The members of an object denote a node of a type: its slots
  come from the values of the members.
-/
def FieldsDenote
    (t : NodeType)
    (members : List (String × Json))
    (v : Tree) : Prop :=
  ∃ values slots,
    MembersDenote t members values ∧
      List.Forall₂ (SlotHolds values) t.fields slots ∧
      v = .node t slots

theorem ofMembers_decodeMembers_iff
    {t : NodeType}
    {members : List (String × Json)}
    (h : ∀ before done,
      decodeMembers members t before = .ok done ↔
        ∃ values, MembersDenote t members values ∧
          done = values.reverse ++ before)
    {v : Tree} :
    (∃ done, decodeMembers members t [] = .ok done ∧
        t.ofMembers done = .ok v) ↔
      FieldsDenote t members v := by
  simp only [h, List.append_nil]
  constructor
  · intro hParts
    rcases hParts with ⟨_, ⟨values, hValues, rfl⟩, hNode⟩
    rcases NodeType.ofMembers_eq_ok_iff.mp hNode with
      ⟨slots, hSlots, rfl⟩
    exact ⟨values, slots, hValues, hSlots, rfl⟩
  · intro hParts
    rcases hParts with ⟨values, slots, hValues, hSlots, rfl⟩
    exact ⟨values.reverse, ⟨values, hValues, rfl⟩,
      NodeType.ofMembers_eq_ok_iff.mpr ⟨slots, hSlots, rfl⟩⟩

/- The members of an object are decoded to what they denote. -/
def MembersDecoded
    (members : List (String × Json)) : Prop :=
  ∀ (t : NodeType) (before done : List (String × Tree)),
    decodeMembers members t before = .ok done ↔
      ∃ values, MembersDenote t members values ∧
        done = values.reverse ++ before

theorem decodeAs_empty_node_iff
    {t : NodeType}
    {v : Tree} :
    (Json.object []).decodeAs (.node t) = .ok v ↔
      Denotes (.node t) (.object []) v := by
  rw [decodeAs]
  cases hTag : t.category.tag? with
  | none =>
      have hOther := NodeType.category_eq_other_iff.mp hTag
      constructor
      · intro h
        cases h
        exact .zero hOther
      · intro hCases
        rcases hCases with _ | _ | _ | ⟨_, hMembers, _, _⟩
        · rfl
        · exact absurd rfl hMembers
  | some tag =>
      have hSum : t.category ≠ .other := by
        intro hOther
        rw [NodeType.category_eq_other_iff.mpr hOther] at hTag
        cases hTag
      constructor
      · intro h
        cases h
      · intro hCases
        rcases hCases with _ | _ | hOther | ⟨hOther, _, _, _⟩
        · exact absurd hOther hSum
        · exact absurd hOther hSum

/- An object as a node: with a tag ahead, or with fields only. -/
theorem decodeAs_node_iff
    {m : String × Json}
    {members : List (String × Json)}
    {t : NodeType}
    {v : Tree}
    (hAll : MembersDecoded (m :: members))
    (hRest : MembersDecoded members) :
    (Json.object (m :: members)).decodeAs (.node t) = .ok v ↔
      Denotes (.node t) (.object (m :: members)) v := by
  rw [decodeAs]
  cases hTag : t.category.tag? with
  | none =>
      have hOther := NodeType.category_eq_other_iff.mp hTag
      simp only [List.isEmpty_cons, Bool.false_eq_true, if_false,
        Action.except_bind_eq_ok_iff]
      rw [ofMembers_decodeMembers_iff (hAll t)]
      constructor
      · intro hParts
        rcases hParts with ⟨values, slots, hValues, hSlots, rfl⟩
        exact .node hOther (by simp) hValues hSlots
      · intro h
        cases h with
        | node _ _ hValues hSlots =>
            exact ⟨_, _, hValues, hSlots, rfl⟩
        | tagged hTagged =>
            rw [hTag] at hTagged
            cases hTagged
  | some tag =>
      simp only [List.isEmpty_cons, Bool.false_eq_true, if_false,
        decodeTagged_eq_ok_iff, chooseNode_eq_ok_iff]
      constructor
      · intro hParts
        rcases hParts with
          ⟨name, u, rest, done, hEq, ⟨rfl, rfl⟩, hNode⟩
        cases hEq
        rcases (ofMembers_decodeMembers_iff (hRest t)).mp
          ⟨done, hNode⟩ with
          ⟨values, slots, hValues, hSlots, rfl⟩
        exact .tagged hTag hValues hSlots
      · intro h
        cases h with
        | node hOther =>
            rw [NodeType.category_eq_other_iff.mpr hOther] at hTag
            cases hTag
        | tagged hTagged hValues hSlots =>
            rw [hTag] at hTagged
            cases hTagged
            rcases (ofMembers_decodeMembers_iff (hRest t)).mpr
              ⟨_, _, hValues, hSlots, rfl⟩ with
              ⟨done, hDone, hNode⟩
            exact ⟨_, _, _, done, rfl, ⟨rfl, rfl⟩, hDone, hNode⟩

/- An object as a node of a sum: the tag names its type. -/
theorem decodeAs_sum_iff
    {m : String × Json}
    {members : List (String × Json)}
    {sum : NodeSum}
    {v : Tree}
    (hRest : MembersDecoded members) :
    (Json.object (m :: members)).decodeAs (.sum sum) = .ok v ↔
      Denotes (.sum sum) (.object (m :: members)) v := by
  rw [decodeAs]
  simp only [List.isEmpty_cons, Bool.false_eq_true, if_false,
    decodeTagged_eq_ok_iff, chooseVariant_eq_ok_iff]
  constructor
  · intro hParts
    rcases hParts with
      ⟨name, t, rest, done, hEq, ⟨hSum, rfl⟩, hNode⟩
    cases hEq
    rcases (ofMembers_decodeMembers_iff (hRest t)).mp
      ⟨done, hNode⟩ with
      ⟨values, slots, hValues, hSlots, rfl⟩
    exact .variant hSum hValues hSlots
  · intro h
    cases h with
    | variant hSum hValues hSlots =>
        rcases (ofMembers_decodeMembers_iff (hRest _)).mpr
          ⟨_, _, hValues, hSlots, rfl⟩ with
          ⟨done, hDone, hNode⟩
        exact ⟨_, _, _, done, rfl, ⟨hSum, rfl⟩, hDone, hNode⟩

mutual

/- Recursion on a document computes what the document denotes. -/
theorem decodeAs_eq_ok_iff :
    ∀ (j : Json) (shape : Shape) (v : Tree),
      j.decodeAs shape = .ok v ↔ Denotes shape j v
  | .literal lit, .scalar type, v => by
      rw [decodeAs, ScalarType.ofToken_literal_iff]
      exact ⟨.scalar, fun | .scalar h => h⟩
  | .literal lit, .node t, v =>
      ⟨fun h => by simp [decodeAs] at h, fun h => nomatch h⟩
  | .literal lit, .sum sum, v =>
      ⟨fun h => by simp [decodeAs] at h, fun h => nomatch h⟩
  | .literal lit, .list elem, v =>
      ⟨fun h => by simp [decodeAs] at h, fun h => nomatch h⟩
  | .array items, .scalar type, v => by
      constructor
      · intro h
        rw [decodeAs] at h
        rcases ScalarType.ofToken_of_ok h with ⟨lit, hLit⟩
        cases hLit
      · intro h
        cases h
  | .array items, .node t, v =>
      ⟨fun h => by simp [decodeAs] at h, fun h => nomatch h⟩
  | .array items, .sum sum, v =>
      ⟨fun h => by simp [decodeAs] at h, fun h => nomatch h⟩
  | .array items, .list elem, v => by
      rw [decodeAs, Action.except_map_eq_ok_iff]
      constructor
      · intro hParts
        rcases hParts with ⟨trees, hItems, rfl⟩
        exact .list
          ((decodeItems_eq_ok_iff items elem 0 trees).mp hItems)
      · intro h
        cases h with
        | list hItems =>
            exact ⟨_,
              (decodeItems_eq_ok_iff items elem 0 _).mpr hItems, rfl⟩
  | .object members, .scalar type, v => by
      constructor
      · intro h
        rw [decodeAs] at h
        rcases ScalarType.ofToken_of_ok h with ⟨lit, hLit⟩
        cases hLit
      · intro h
        cases h
  | .object members, .list elem, v =>
      ⟨fun h => by simp [decodeAs] at h, fun h => nomatch h⟩
  | .object [], .node t, v =>
      decodeAs_empty_node_iff
  | .object (m :: members), .node t, v =>
      decodeAs_node_iff (decodeMembers_eq_ok_iff (m :: members))
        (decodeMembers_eq_ok_iff members)
  | .object [], .sum sum, v =>
      ⟨fun h => by simp [decodeAs] at h, fun h => nomatch h⟩
  | .object (m :: members), .sum sum, v =>
      decodeAs_sum_iff (decodeMembers_eq_ok_iff members)

theorem decodeItems_eq_ok_iff :
    ∀ (items : List Json) (elem : Shape) (i : Nat)
      (trees : List Tree),
      decodeItems items elem i = .ok trees ↔
        ItemsDenote elem items trees
  | [], elem, i, trees => by
      rw [decodeItems, Except.ok.injEq]
      constructor
      · intro hEq
        subst hEq
        exact .nil
      · intro hCase
        cases hCase
        rfl
  | item :: items, elem, i, trees => by
      have hItem := decodeAs_eq_ok_iff item elem
      have hItems := decodeItems_eq_ok_iff items elem (i + 1)
      rw [decodeItems, Action.except_bind_eq_ok_iff]
      simp only [Action.except_mapError_eq_ok_iff, hItem,
        Action.except_bind_eq_ok_iff, hItems]
      constructor
      · intro hParts
        rcases hParts with ⟨v, hFirst, rest, hRest, hEq⟩
        cases hEq
        exact .cons hFirst hRest
      · intro hCases
        rcases hCases with _ | ⟨hFirst, hRest⟩
        exact ⟨_, hFirst, _, hRest, rfl⟩

theorem decodeMembers_eq_ok_iff :
    ∀ (members : List (String × Json)) (t : NodeType)
      (before done : List (String × Tree)),
      decodeMembers members t before = .ok done ↔
        ∃ values, MembersDenote t members values ∧
          done = values.reverse ++ before
  | [], t, before, done => by
      rw [decodeMembers, Except.ok.injEq]
      constructor
      · intro hEq
        subst hEq
        exact ⟨[], .nil, rfl⟩
      · intro hParts
        rcases hParts with ⟨values, ⟨⟩, rfl⟩
        rfl
  | (key, value) :: members, t, before, done => by
      have hMembers := decodeMembers_eq_ok_iff members t
      have hValue := decodeAs_eq_ok_iff value
      rw [decodeMembers_cons, Action.except_bind_eq_ok_iff]
      simp only [hMembers]
      constructor
      · intro hParts
        rcases hParts with ⟨v, hFirst, values, hValues, rfl⟩
        unfold decodeMember at hFirst
        split at hFirst
        · cases hFirst
        · rename_i f hField
          rw [Action.except_mapError_eq_ok_iff, hValue] at hFirst
          rcases NodeType.field?_eq_some_iff.mp hField with
            ⟨hMem, hCarried, rfl⟩
          exact ⟨(f.key, v) :: values,
            .cons hMem hCarried hFirst hValues, by simp⟩
      · intro hParts
        rcases hParts with ⟨all, hAll, rfl⟩
        cases hAll with
        | cons hMem hCarried hFirst hValues =>
            rename_i f v values
            refine ⟨v, ?_, values, hValues, by simp⟩
            rw [decodeMember,
              NodeType.field?_key_of_mem hMem hCarried]
            exact Action.except_mapError_eq_ok_iff.mpr
              ((hValue _ _).mpr hFirst)

end

end Json

------------------------------------------------------------
-- Decoding a Document Among Other Tokens
------------------------------------------------------------

variable {μ : Type} [TokenMachine μ] [LawfulMachine μ]

/-
  Where a stream delivers a document, decoding succeeds exactly
  when the document denotes a tree, with that tree, and stops
  right behind the document.
-/
theorem decode_eq_ok_iff
    {j : Json}
    {s s' : Stream μ}
    (shape : Shape)
    (h : s.Delivers j.tokens s')
    {v : Tree}
    {s₁ : Stream μ} :
    decode shape s = (.ok v, s₁) ↔
      Denotes shape j v ∧ s₁ = s' := by
  have hGives := decode_tokens shape h
  rw [← Json.decodeAs_eq_ok_iff]
  constructor
  · intro hDecode
    rw [hDecode] at hGives
    exact ⟨hGives.1.symm, hGives.2 v hGives.1.symm⟩
  · intro hParts
    rcases hParts with ⟨hTree, rfl⟩
    rw [hTree] at hGives
    exact hGives.eq_of_ok

/-
  A document followed by any other tokens: decoding succeeds
  exactly when the document conforms to the shape, gives the
  tree that it denotes, and leaves the other tokens unread.
-/
theorem decode_document_then_rest
    (shape : Shape)
    (j : Json)
    (rest : List Token)
    (s s'' : Stream μ)
    (h : s.Delivers (j.tokens ++ rest) s'') :
    ∃ s', s.Delivers j.tokens s' ∧
      s'.Delivers rest s'' ∧
      ∀ (v : Tree) (s₁ : Stream μ),
        decode shape s = (.ok v, s₁) ↔
          Denotes shape j v ∧ s₁ = s' := by
  rcases Stream.Delivers.append_iff.mp h with
    ⟨s', hDocument, hRest⟩
  exact ⟨s', hDocument, hRest, fun _ _ =>
    decode_eq_ok_iff shape hDocument⟩

/- A negation whose operator is given twice. -/
def repeatedOperator : Json :=
  .object
    [("expression_name", .string "UnaryExpr"),
     ("operator", .string "-"),
     ("operand", .object
       [("expression_name", .string "Ident"),
        ("name", .string "x")]),
     ("operator", .string "+")]

/-
  The document in front of tokens that no document could hold
  there.
-/
theorem decode_repeatedOperator_then_rest :
    (TokenList.stream
        (repeatedOperator.tokens ++ [.key "x", .eof])).Delivers
      (repeatedOperator.tokens ++ [.key "x", .eof])
      (TokenList.stream []) ∧
    ∃ s',
      (TokenList.stream
          (repeatedOperator.tokens ++ [.key "x", .eof])).Delivers
        repeatedOperator.tokens s' ∧
      s'.Delivers [.key "x", .eof] (TokenList.stream []) ∧
      ∀ (v : Tree) (s₁ : Stream TokenList),
        decode (.sum .expr)
            (TokenList.stream
              (repeatedOperator.tokens ++ [.key "x", .eof])) =
            (.ok v, s₁) ↔
          Denotes (.sum .expr) repeatedOperator v ∧ s₁ = s' := by
  have h :=
    TokenList.stream_delivers
      (repeatedOperator.tokens ++ [.key "x", .eof]) []
  rw [List.append_nil] at h
  exact ⟨h, decode_document_then_rest (.sum .expr)
    repeatedOperator [.key "x", .eof] _ _ h⟩

end TreeWire
