import Mathlib.Data.List.Perm.Basic
import TreeWire.Proofs.Node.SourceAgreement

/-
  The order of the members of objects.

  A decoder takes the last member for each field, wherever the
  members of other fields stand.  So members may change places
  in all objects of a document at once, as long as members with
  one key keep their order and a tag stays ahead of the members
  that it explains.

  Documents mean the same when they denote the same trees at
  every shape.  Members that mean the same, one by one, make
  objects that mean the same, and so do members in another
  order.  The rest is an induction over the document.

  Key definitions include:
    * `Moved`
    * `Json.Reordered`
    * `Json.MeansSame`

  Main statements:
    * `meansSame_of_moved`
    * `Json.Reordered.meansSame`
    * `Json.Reordered.depth_eq`
    * `decode_reordered`
-/

namespace TreeWire

open Grammar

------------------------------------------------------------
-- Documents in Another Order
------------------------------------------------------------

/- Members in another order.  Those with one key keep theirs. -/
structure Shuffled
    (members members' : List (String × Json)) : Prop where
  perm : members.Perm members'
  inOrder :
    ∀ key : String,
      members.filter (·.1 = key) = members'.filter (·.1 = key)

/-
  Members of an object in another order.  The first one stays
  where it is if the members have the key of a tag.
-/
structure Moved
    (members members' : List (String × Json)) : Prop
    extends Shuffled members members' where
  tagFirst :
    ∀ sum : NodeSum,
      sum.tag ∈ keysOf members → members.head? = members'.head?

namespace Json

mutual

/- A document with members of its objects in another order. -/
inductive Reordered : Json → Json → Prop where
  | literal
      (lit : Literal) :
      Reordered (.literal lit) (.literal lit)
  | array
      {items items' : List Json}
      (hItems : ItemsReordered items items') :
      Reordered (.array items) (.array items')
  | object
      {members between members' : List (String × Json)}
      (hMembers : MembersReordered members between)
      (hMoved : Moved between members') :
      Reordered (.object members) (.object members')

/- The elements of an array, each one reordered. -/
inductive ItemsReordered : List Json → List Json → Prop where
  | nil :
      ItemsReordered [] []
  | cons
      {j j' : Json}
      {items items' : List Json}
      (hItem : Reordered j j')
      (hItems : ItemsReordered items items') :
      ItemsReordered (j :: items) (j' :: items')

/- The members of an object, each one reordered in its place. -/
inductive MembersReordered :
    List (String × Json) →
    List (String × Json) → Prop where
  | nil :
      MembersReordered [] []
  | cons
      {key : String}
      {j j' : Json}
      {members members' : List (String × Json)}
      (hValue : Reordered j j')
      (hMembers : MembersReordered members members') :
      MembersReordered ((key, j) :: members)
        ((key, j') :: members')

end

/- Documents that denote the same trees, at every shape. -/
def MeansSame
    (j j' : Json) : Prop :=
  ∀ shape v, Denotes shape j v ↔ Denotes shape j' v

/- A document denotes one tree of a shape at most. -/
theorem denotes_unique
    {shape : Shape}
    {j : Json}
    {v v' : Tree}
    (h : Denotes shape j v)
    (h' : Denotes shape j v') :
    v = v' := by
  rw [← decodeAs_eq_ok_iff] at h h'
  rw [h] at h'
  exact Except.ok.inj h'

/- What means the same as a string is that string. -/
theorem MeansSame.eq_string
    {s : String}
    {j : Json}
    (h : (Json.string s).MeansSame j) :
    j = .string s := by
  have hText :
      Denotes (.scalar .string) (.string s) (.text s) :=
    .scalar (.text s)
  rw [h] at hText
  cases hText with
  | scalar hLiteral =>
      cases hLiteral
      rfl

end Json

------------------------------------------------------------
-- Members in Place
------------------------------------------------------------

/- Members with one key, whose values mean the same. -/
def MemberMeansSame
    (m m' : String × Json) : Prop :=
  m.1 = m'.1 ∧ m.2.MeansSame m'.2

theorem MemberMeansSame.symm
    {m m' : String × Json}
    (h : MemberMeansSame m m') :
    MemberMeansSame m' m :=
  ⟨h.1.symm, fun shape v => (h.2 shape v).symm⟩

theorem membersDenote_of_meansSame
    {t : NodeType}
    {members members' : List (String × Json)}
    {values : List (String × Tree)}
    (hMembers : List.Forall₂ MemberMeansSame members members')
    (h : MembersDenote t members values) :
    MembersDenote t members' values := by
  induction hMembers generalizing values with
  | nil => exact h
  | @cons m m' _ _ hFirst _ ih =>
      rcases m' with ⟨key, value'⟩
      rcases hFirst with ⟨rfl, hValue⟩
      cases h with
      | cons hField hCarried hDenotes hRest =>
          exact .cons hField hCarried ((hValue _ _).mp hDenotes)
            (ih hRest)

/- Members that mean the same make the same of an object. -/
theorem denotes_object_of_meansSame
    {shape : Shape}
    {members members' : List (String × Json)}
    {v : Tree}
    (hMembers : List.Forall₂ MemberMeansSame members members')
    (h : Denotes shape (.object members) v) :
    Denotes shape (.object members') v := by
  cases h with
  | zero hOther =>
      cases hMembers
      exact .zero hOther
  | node hOther hNe hValues hSlots =>
      have hNe' : members' ≠ [] := by
        rintro rfl
        cases hMembers
        exact hNe rfl
      exact .node hOther hNe'
        (membersDenote_of_meansSame hMembers hValues) hSlots
  | tagged hTag hValues hSlots =>
      cases hMembers with
      | @cons _ m' _ rest' hFirst hRest =>
          rcases m' with ⟨tag, value⟩
          rcases hFirst with ⟨rfl, hValue⟩
          cases hValue.eq_string
          exact .tagged hTag
            (membersDenote_of_meansSame hRest hValues) hSlots
  | variant hSum hValues hSlots =>
      cases hMembers with
      | @cons _ m' _ rest' hFirst hRest =>
          rcases m' with ⟨tag, value⟩
          rcases hFirst with ⟨rfl, hValue⟩
          cases hValue.eq_string
          exact .variant hSum
            (membersDenote_of_meansSame hRest hValues) hSlots

theorem meansSame_of_members
    {members members' : List (String × Json)}
    (h : List.Forall₂ MemberMeansSame members members') :
    (Json.object members).MeansSame (.object members') := by
  intro shape v
  have hBack : List.Forall₂ MemberMeansSame members' members :=
    h.flip.imp fun _ _ => MemberMeansSame.symm
  exact ⟨denotes_object_of_meansSame h,
    denotes_object_of_meansSame hBack⟩

------------------------------------------------------------
-- Members in Another Order
------------------------------------------------------------

section

variable {members members' : List (String × Json)}

theorem Moved.symm
    (h : Moved members members') :
    Moved members' members where
  perm := h.perm.symm
  inOrder := fun key => (h.inOrder key).symm
  tagFirst := by
    intro sum hMem
    have hKeys : (keysOf members).Perm (keysOf members') :=
      h.perm.map Prod.fst
    exact (h.tagFirst sum (hKeys.mem_iff.mpr hMem)).symm

/- The last value for a key is the last one with that key. -/
theorem lookup_reverse_of_filter
    {values values' : List (String × Tree)}
    {key : String}
    (h :
      values'.filter (·.1 = key) = values.filter (·.1 = key)) :
    values'.reverse.lookup key = values.reverse.lookup key := by
  have hFilter :
      ∀ us : List (String × Tree),
        us.lookup key = (us.filter (·.1 = key)).lookup key := by
    intro us
    induction us with
    | nil => rfl
    | cons u us ih =>
        rcases u with ⟨name, v⟩
        by_cases hName : name = key
        · simp [hName]
        · have hOther : (key == name) = false := by
            simpa using Ne.symm hName
          simp [hName, List.lookup_cons, hOther, ih]
  rw [hFilter, hFilter values.reverse, List.filter_reverse,
    List.filter_reverse, h]

/- A member denotes one value at most. -/
theorem memberDenotes_unique
    {t : NodeType} :
    Relator.RightUnique (MemberDenotes t) := by
  intro m value value' h h'
  rcases m with ⟨key, j⟩
  rcases value with ⟨name, v⟩
  rcases value' with ⟨name', v'⟩
  rcases h with ⟨rfl, f, hField, hCarried, hKey, hDenotes⟩
  rcases h' with ⟨rfl, f', hField', hCarried', hKey', hDenotes'⟩
  have hFound := NodeType.field?_key_of_mem hField hCarried
  rw [hKey, ← hKey',
    NodeType.field?_key_of_mem hField' hCarried'] at hFound
  cases hFound
  exact Prod.ext rfl (Json.denotes_unique hDenotes hDenotes')

/-
  Members in another order denote values that find the same for
  every key.
-/
theorem Shuffled.values
    {t : NodeType}
    {values : List (String × Tree)}
    (hShuffled : Shuffled members members')
    (h : MembersDenote t members values) :
    ∃ values',
      MembersDenote t members' values' ∧
        ∀ key,
          values'.reverse.lookup key = values.reverse.lookup key := by
  rw [membersDenote_iff] at h
  rcases List.perm_comp_forall₂ hShuffled.perm.symm h with
    ⟨values', h', _⟩
  refine ⟨values', membersDenote_iff.mpr h', fun key => ?_⟩
  have hKeys :
      ∀ ⦃m : String × Json⦄ ⦃value : String × Tree⦄,
        MemberDenotes t m value →
        (decide (m.1 = key) ↔ decide (value.1 = key)) := by
    intro m value hBoth
    rw [hBoth.1]
  have hHere := List.rel_filter hKeys h
  have hThere := List.rel_filter hKeys h'
  rw [hShuffled.inOrder key] at hHere
  exact lookup_reverse_of_filter
    (List.right_unique_forall₂' memberDenotes_unique hThere hHere)

/- So the slots of a node are the same in another order. -/
theorem Shuffled.slots
    {t : NodeType}
    {values : List (String × Tree)}
    {slots : List (Option Tree)}
    (hShuffled : Shuffled members members')
    (hValues : MembersDenote t members values)
    (hSlots : List.Forall₂ (SlotHolds values) t.fields slots) :
    ∃ values',
      MembersDenote t members' values' ∧
        List.Forall₂ (SlotHolds values') t.fields slots := by
  rcases hShuffled.values hValues with ⟨values', hValues', hLookup⟩
  exact ⟨values', hValues',
    hSlots.imp fun f _ => slotHolds_of_lookup (hLookup f.key)⟩

/- Neighbours behind the first member change places. -/
theorem moved_swap
    (first : String × Json)
    (before : List (String × Json))
    {m m' : String × Json}
    (hKeys : m.1 ≠ m'.1)
    (after : List (String × Json)) :
    Moved (first :: (before ++ m :: m' :: after))
      (first :: (before ++ m' :: m :: after)) where
  perm := ((List.Perm.swap m' m after).append_left before).cons first
  inOrder := by
    intro key
    have hPair :
        (m :: m' :: after).filter (·.1 = key) =
          (m' :: m :: after).filter (·.1 = key) := by
      by_cases hFirst : m.1 = key
      · have hOther : m'.1 ≠ key := by
          rw [← hFirst]
          exact hKeys.symm
        simp [hFirst, hOther]
      · simp [List.filter_cons, hFirst]
    rw [List.filter_cons, List.filter_cons, List.filter_append,
      List.filter_append, hPair]
  tagFirst := fun _ _ => rfl

/- Behind a tag that stays first, the members are shuffled. -/
theorem Moved.tail
    {tag : String}
    {value : Json}
    (h : Moved ((tag, value) :: members) members')
    (hTag : ∃ sum : NodeSum, sum.tag = tag) :
    ∃ rest,
      members' = (tag, value) :: rest ∧ Shuffled members rest := by
  rcases hTag with ⟨sum, rfl⟩
  have hHead := h.tagFirst sum List.mem_cons_self
  cases members' with
  | nil => cases hHead
  | cons m rest =>
      cases hHead
      refine ⟨rest, rfl, h.perm.cons_inv, fun key => ?_⟩
      have hOrder := h.inOrder key
      rw [List.filter_cons, List.filter_cons] at hOrder
      split at hOrder
      · exact (List.cons.inj hOrder).2
      · exact hOrder

theorem exists_sum_of_tag?
    {c : Category}
    {tag : String}
    (h : c.tag? = some tag) :
    ∃ sum : NodeSum, sum.tag = tag := by
  cases c with
  | expression => exact ⟨.expr, Option.some.inj h⟩
  | statement => exact ⟨.stmt, Option.some.inj h⟩
  | other => cases h

theorem denotes_object_of_moved
    {shape : Shape}
    {v : Tree}
    (hMoved : Moved members members')
    (h : Denotes shape (.object members) v) :
    Denotes shape (.object members') v := by
  cases h with
  | zero hOther =>
      rw [← hMoved.perm.nil_eq]
      exact .zero hOther
  | node hOther hNe hValues hSlots =>
      have hNe' : members' ≠ [] := by
        rintro rfl
        exact hNe hMoved.perm.eq_nil
      rcases hMoved.slots hValues hSlots with
        ⟨values', hValues', hSlots'⟩
      exact .node hOther hNe' hValues' hSlots'
  | tagged hTag hValues hSlots =>
      rcases hMoved.tail (exists_sum_of_tag? hTag) with
        ⟨rest, rfl, hRest⟩
      rcases hRest.slots hValues hSlots with
        ⟨values', hValues', hSlots'⟩
      exact .tagged hTag hValues' hSlots'
  | variant hSum hValues hSlots =>
      rcases hMoved.tail ⟨_, rfl⟩ with ⟨rest, rfl, hRest⟩
      rcases hRest.slots hValues hSlots with
        ⟨values', hValues', hSlots'⟩
      exact .variant hSum hValues' hSlots'

/- Members in another order make the same of an object. -/
theorem meansSame_of_moved
    (h : Moved members members') :
    (Json.object members).MeansSame (.object members') := by
  intro shape v
  exact ⟨denotes_object_of_moved h, denotes_object_of_moved h.symm⟩

end

------------------------------------------------------------
-- Whole Documents
------------------------------------------------------------

namespace Json

theorem MeansSame.trans
    {j₁ j₂ j₃ : Json}
    (h : j₁.MeansSame j₂)
    (h' : j₂.MeansSame j₃) :
    j₁.MeansSame j₃ :=
  fun shape v => (h shape v).trans (h' shape v)

theorem meansSame_of_items
    {items items' : List Json}
    (h : List.Forall₂ MeansSame items items') :
    (Json.array items).MeansSame (.array items') := by
  have hItems :
      ∀ elem trees,
        ItemsDenote elem items trees ↔
          ItemsDenote elem items' trees := by
    intro elem trees
    induction h generalizing trees with
    | nil => exact Iff.rfl
    | cons hFirst _ ih =>
        constructor
        · intro hDenote
          cases hDenote with
          | cons hItem hRest =>
              exact .cons ((hFirst _ _).mp hItem)
                ((ih _).mp hRest)
        · intro hDenote
          cases hDenote with
          | cons hItem hRest =>
              exact .cons ((hFirst _ _).mpr hItem)
                ((ih _).mpr hRest)
  intro shape v
  constructor
  · intro hDenotes
    cases hDenotes with
    | list hList => exact .list ((hItems _ _).mp hList)
  · intro hDenotes
    cases hDenotes with
    | list hList => exact .list ((hItems _ _).mpr hList)

mutual

/- A document in another order means the same. -/
theorem Reordered.meansSame :
    ∀ {j j' : Json}, Reordered j j' → j.MeansSame j'
  | _, _, .literal _ => fun _ _ => Iff.rfl
  | _, _, .array hItems =>
      meansSame_of_items (ItemsReordered.meanSame hItems)
  | _, _, .object hMembers hMoved =>
      (meansSame_of_members
        (MembersReordered.meanSame hMembers)).trans
        (meansSame_of_moved hMoved)

theorem ItemsReordered.meanSame :
    ∀ {items items' : List Json},
      ItemsReordered items items' →
      List.Forall₂ MeansSame items items'
  | _, _, .nil => .nil
  | _, _, .cons hItem hItems =>
      .cons (Reordered.meansSame hItem)
        (ItemsReordered.meanSame hItems)

theorem MembersReordered.meanSame :
    ∀ {members members' : List (String × Json)},
      MembersReordered members members' →
      List.Forall₂ MemberMeansSame members members'
  | _, _, .nil => .nil
  | _, _, .cons hValue hMembers =>
      .cons ⟨rfl, Reordered.meansSame hValue⟩
        (MembersReordered.meanSame hMembers)

end

/- Members in another order nest equally deep. -/
theorem membersDepth_of_perm
    {members members' : List (String × Json)}
    (h : members.Perm members') :
    membersDepth members = membersDepth members' := by
  have hLe :
      ∀ n, membersDepth members ≤ n ↔ membersDepth members' ≤ n := by
    intro n
    simp only [membersDepth_le_iff, h.mem_iff]
  exact Nat.le_antisymm ((hLe _).mpr (Nat.le_refl _))
    ((hLe _).mp (Nat.le_refl _))

mutual

/- A document in another order nests equally deep. -/
theorem Reordered.depth_eq :
    ∀ {j j' : Json}, Reordered j j' → j.depth = j'.depth
  | _, _, .literal _ => rfl
  | _, _, .array hItems => by
      rw [depth, depth, ItemsReordered.depth_eq hItems]
  | _, _, .object hMembers hMoved => by
      rw [depth, depth, MembersReordered.depth_eq hMembers,
        membersDepth_of_perm hMoved.perm]

theorem ItemsReordered.depth_eq :
    ∀ {items items' : List Json},
      ItemsReordered items items' →
      itemsDepth items = itemsDepth items'
  | _, _, .nil => rfl
  | _, _, .cons hItem hItems => by
      rw [itemsDepth, itemsDepth, Reordered.depth_eq hItem,
        ItemsReordered.depth_eq hItems]

theorem MembersReordered.depth_eq :
    ∀ {members members' : List (String × Json)},
      MembersReordered members members' →
      membersDepth members = membersDepth members'
  | _, _, .nil => rfl
  | _, _, .cons hValue hMembers => by
      rw [membersDepth, membersDepth, Reordered.depth_eq hValue,
        MembersReordered.depth_eq hMembers]

end

end Json

section

variable {shape : Shape}
variable {limit : Nat}
variable {j : Json}
variable {v : Tree}

/- A parsed document decodes to what it denotes. -/
theorem decodeParsed_eq_ok_iff :
    decodeParsed shape j limit = .ok v ↔
      j.depth ≤ limit ∧ Denotes shape j v :=
  decodeDocument_eq_ok_iff (ValueWalk.stream_tells j limit)

/- So does the text of a document. -/
theorem decodeText_of_document
    {bytes : List UInt8}
    (h : Document bytes j) :
    decodeText shape bytes limit = .ok v ↔
      j.depth ≤ limit ∧ Denotes shape j v :=
  decodeDocument_eq_ok_iff (Scanner.stream_tells limit h)

end

/-
  The order of members does not matter, but for tags: documents
  that differ in it decode to the same tree or both fail, from
  their texts and from their trees, at every shape and limit.
-/
theorem decode_reordered
    (shape : Shape)
    (j j' : Json)
    (limit : Nat)
    (h : j.Reordered j')
    (v : Tree) :
    (decodeParsed shape j limit = .ok v ↔
      decodeParsed shape j' limit = .ok v) ∧
    ∀ bytes bytes' : List UInt8,
      Document bytes j →
      Document bytes' j' →
      (decodeText shape bytes limit = .ok v ↔
        decodeText shape bytes' limit = .ok v) := by
  have hSame :
      (j.depth ≤ limit ∧ Denotes shape j v) ↔
        (j'.depth ≤ limit ∧ Denotes shape j' v) := by
    rw [h.depth_eq, h.meansSame shape v]
  constructor
  · rw [decodeParsed_eq_ok_iff, decodeParsed_eq_ok_iff]
    exact hSame
  · intro bytes bytes' hDocument hDocument'
    rw [decodeText_of_document hDocument,
      decodeText_of_document hDocument']
    exact hSame

/- A signed number.  Its operator is given twice. -/
def signedNumber : Json :=
  .object
    [("expression_name", .string "UnaryExpr"),
     ("operator", .string "-"),
     ("operand", .object
       [("expression_name", .string "BasicLit"),
        ("kind", .string "int"),
        ("value", .string "1")]),
     ("operator", .string "+")]

/- The signed number with members of both objects moved. -/
def movedNumber : Json :=
  .object
    [("expression_name", .string "UnaryExpr"),
     ("operator", .string "-"),
     ("operator", .string "+"),
     ("operand", .object
       [("expression_name", .string "BasicLit"),
        ("value", .string "1"),
        ("kind", .string "int")])]

/- The tree of both documents: the last operator counts. -/
def signedTree : Tree :=
  .node .unaryExpr
    [some (.text "+"),
     some (.node .basicLit [some (.text "int"), some (.text "1")])]

theorem signedNumber_reordered :
    signedNumber.Reordered movedNumber := by
  have hOperand :
      Json.Reordered
        (.object
          [("expression_name", .string "BasicLit"),
           ("kind", .string "int"),
           ("value", .string "1")])
        (.object
          [("expression_name", .string "BasicLit"),
           ("value", .string "1"),
           ("kind", .string "int")]) :=
    .object
      (.cons (.literal _)
        (.cons (.literal _) (.cons (.literal _) .nil)))
      (moved_swap _ [] (by decide) [])
  exact .object
    (.cons (.literal _)
      (.cons (.literal _)
        (.cons hOperand (.cons (.literal _) .nil))))
    (moved_swap _ [("operator", .string "-")] (by decide) [])

/- Texts of both documents: all their literals are strings. -/
theorem document_of_strings
    {j : Json}
    (h :
      ∀ lit, .literal lit ∈ j.tokens →
        lit = ⟨.string, lit.text⟩) :
    Document j.compact.toUTF8.toList j := by
  refine Json.document_compact j fun lit hMem => ?_
  rw [h lit hMem]
  exact Json.scalar_string lit.text

/- Both documents decode to the tree, from either source. -/
theorem decode_signedNumber_reordered :
    signedNumber.Reordered movedNumber ∧
    Document signedNumber.compact.toUTF8.toList signedNumber ∧
    Document movedNumber.compact.toUTF8.toList movedNumber ∧
    decodeParsed (.sum .expr) movedNumber 2 = .ok signedTree ∧
    decodeText (.sum .expr) movedNumber.compact.toUTF8.toList 2 =
      .ok signedTree := by
  have hText : Document _ signedNumber := document_of_strings <| by
    simp [signedNumber, Json.tokens, Json.memberTokens, Json.string]
  have hText' : Document _ movedNumber := document_of_strings <| by
    simp [movedNumber, Json.tokens, Json.memberTokens, Json.string]
  have hDenotes : Denotes (.sum .expr) signedNumber signedTree :=
    (Json.decodeAs_eq_ok_iff _ _ _).mp rfl
  have hSame :=
    decode_reordered (.sum .expr) signedNumber movedNumber 2
      signedNumber_reordered signedTree
  refine ⟨signedNumber_reordered, hText, hText', ?_, ?_⟩
  · apply hSame.1.mp
    exact decodeParsed_eq_ok_iff.mpr ⟨Nat.le_refl _, hDenotes⟩
  · apply (hSame.2 _ _ hText hText').mp
    exact (decodeText_of_document hText).mpr
      ⟨Nat.le_refl _, hDenotes⟩

end TreeWire
