import TreeWire.Proofs.Node.DecodedTexts
import TreeWire.Proofs.Node.RoundTrip

/-
  Decoded trees that are written again.

  A tree that a document denotes has the shape that it was
  decoded as and fills only fields that documents carry.  So it
  comes back from its own text, if that text keeps to the limit
  of nesting.  It need not: members that the document left out
  are written with their defaults.  A default adds two levels at
  most, a node in place of an empty object and an empty list in
  that node.

  Main statements:
    * `Tree.fits_zero`
    * `Tree.fits_of_denotes`
    * `decode_written_again`
-/

namespace TreeWire

------------------------------------------------------------
-- Shapes of Defaults
------------------------------------------------------------

namespace Shape

/- Whether the default of a shape has no part. -/
def isFlat : Shape → Bool
  | .scalar _ => true
  | .list _ => true
  | .node _ => false
  | .sum _ => false

/-
  Whether the default of a shape has no part, or is a node all
  parts of which have none.
-/
def isShallow : Shape → Bool
  | .node u =>
      u.fields.all fun f => f.presence = .optional || f.shape.isFlat
  | other => other.isFlat

end Shape

namespace NodeType

/- A field with a default has a flat one. -/
theorem isFlat_of_defaulted
    {t : NodeType}
    {f : Field}
    (hField : f ∈ t.fields)
    (hPresence : f.presence = .defaulted) :
    f.shape.isFlat = true := by
  have hAll :
      ∀ g ∈ t.fields, g.presence = .defaulted →
        g.shape.isFlat = true := by
    cases t <;> decide
  exact hAll f hField hPresence

/- The parts of the default of a node outside the sums. -/
theorem isShallow_of_other
    {t : NodeType}
    {f : Field}
    (hOther : t.category = .other)
    (hField : f ∈ t.fields)
    (hPresence : f.presence ≠ .optional) :
    f.shape.isShallow = true := by
  have hAll :
      t.category = .other → ∀ g ∈ t.fields,
        g.presence ≠ .optional → g.shape.isShallow = true := by
    cases t <;> decide
  exact hAll hOther f hField hPresence

/- Documents carry every field that is never empty. -/
theorem carried_of_filled
    {t : NodeType}
    {f : Field}
    (hField : f ∈ t.fields)
    (hPresence : f.presence ≠ .optional) :
    f.carried = true := by
  have hAll :
      ∀ g ∈ t.fields, g.presence ≠ .optional → g.carried = true := by
    cases t <;> decide
  exact hAll f hField hPresence

/- The carried fields of a node type differ in their keys. -/
theorem eq_of_key_eq
    {t : NodeType}
    {f g : Field}
    (hField : f ∈ t.fields)
    (hCarried : f.carried = true)
    (hField' : g ∈ t.fields)
    (hCarried' : g.carried = true)
    (hKey : f.key = g.key) :
    f = g := by
  have hFound := field?_key_of_mem hField hCarried
  rw [hKey, field?_key_of_mem hField' hCarried'] at hFound
  exact (Option.some.inj hFound).symm

end NodeType

------------------------------------------------------------
-- Trees That Fit a Shape
------------------------------------------------------------

namespace Tree

/-
  A tree that can be written as a value of a shape, in so many
  levels of nesting.
-/
structure Fits
    (v : Tree)
    (shape : Shape)
    (levels : Nat) : Prop where
  hasShape : v.HasShape shape
  carriedOnly : v.CarriedOnly
  depth_le : (v.toJson shape).depth ≤ levels

theorem Fits.mono
    {v : Tree}
    {shape : Shape}
    {m n : Nat}
    (h : v.Fits shape m)
    (hLe : m ≤ n) :
    v.Fits shape n :=
  ⟨h.hasShape, h.carriedOnly, Nat.le_trans h.depth_le hLe⟩

/- A slot that is rightly empty, or holds a tree that fits. -/
inductive SlotFits
    (levels : Nat)
    (f : Field) :
    Option Tree → Prop where
  | absent
      (hPresence : f.presence = .optional) :
      SlotFits levels f none
  | present
      {v : Tree}
      (hCarried : f.carried = true)
      (hFits : v.Fits f.shape levels) :
      SlotFits levels f (some v)

/- The slots of a node, one by one. -/
theorem slots_of_fits
    {levels : Nat}
    {fields : List Field}
    {slots : List (Option Tree)}
    (h : List.Forall₂ (SlotFits levels) fields slots) :
    FillFields slots fields ∧ SlotsCarriedOnly fields slots ∧
      Json.membersDepth (slotsToJson fields slots) ≤ levels := by
  induction h with
  | nil =>
      refine ⟨.nil, trivial, ?_⟩
      rw [slotsToJson]
      · exact Nat.zero_le _
      · nofun
      · nofun
  | @cons f o fields slots hSlot _ ih =>
      rcases ih with ⟨hFill, hCarried, hDepth⟩
      cases hSlot with
      | absent hPresence =>
          refine ⟨.absent _ _ _ hPresence hFill, ?_, ?_⟩
          · rw [SlotsCarriedOnly]
            exact hCarried
          · rw [slotsToJson]
            exact hDepth
      | present hCarries hFits =>
          refine ⟨.present _ _ _ _ hFits.hasShape hFill, ?_, ?_⟩
          · rw [SlotsCarriedOnly]
            exact ⟨⟨hCarries, hFits.carriedOnly⟩, hCarried⟩
          · rw [slotsToJson, if_pos hCarries, Json.membersDepth]
            exact Nat.max_le.mpr ⟨hFits.depth_le, hDepth⟩

/- A tag nests nothing. -/
theorem depth_tagged
    (tag name : String)
    (members : List (String × Json)) :
    (Json.object ((tag, .string name) :: members)).depth =
      (Json.object members).depth := by
  rw [Json.depth, Json.depth, Json.membersDepth, Json.string,
    Json.depth, Nat.zero_max]

/- A node is one level above its slots, with a tag or without. -/
theorem depth_node_le
    {t : NodeType}
    {slots : List (Option Tree)}
    {levels : Nat}
    (shape : Shape)
    (h : Json.membersDepth (slotsToJson t.fields slots) ≤ levels) :
    ((Tree.node t slots).toJson shape).depth ≤ levels + 1 := by
  rw [toJson]
  cases shape with
  | sum sum =>
      rw [tagMembers, List.singleton_append, depth_tagged]
      exact Nat.succ_le_succ h
  | scalar type => exact Nat.succ_le_succ h
  | node u => exact Nat.succ_le_succ h
  | list elem => exact Nat.succ_le_succ h

theorem fits_node
    {t : NodeType}
    {slots : List (Option Tree)}
    {levels : Nat}
    (h : List.Forall₂ (SlotFits levels) t.fields slots) :
    (Tree.node t slots).Fits (.node t) (levels + 1) := by
  rcases slots_of_fits h with ⟨hFill, hCarried, hDepth⟩
  exact ⟨.node _ _ hFill, hCarried, depth_node_le _ hDepth⟩

theorem fits_variant
    {t : NodeType}
    {sum : NodeSum}
    {slots : List (Option Tree)}
    {levels : Nat}
    (hSum : t.category = sum.category)
    (h : List.Forall₂ (SlotFits levels) t.fields slots) :
    (Tree.node t slots).Fits (.sum sum) (levels + 1) := by
  rcases slots_of_fits h with ⟨hFill, hCarried, hDepth⟩
  exact ⟨.variant _ _ _ hSum hFill, hCarried,
    depth_node_le _ hDepth⟩

------------------------------------------------------------
-- Defaults
------------------------------------------------------------

/- A flat default: a literal, or a list without elements. -/
theorem fits_of_isFlat
    (shape : Shape)
    (nodeZero : NodeType → Tree)
    (h : shape.isFlat = true) :
    ∃ v, shape.zero? nodeZero = some v ∧ v.Fits shape 1 := by
  cases shape with
  | scalar type =>
      refine ⟨type.zero, rfl, ?_⟩
      cases type with
      | string => exact ⟨.text _, trivial, Nat.zero_le _⟩
      | int64 => exact ⟨.int _, trivial, Nat.zero_le _⟩
      | float64 => exact ⟨.float _, trivial, Nat.zero_le _⟩
      | bool => exact ⟨.flag _, trivial, Nat.zero_le _⟩
  | list elem =>
      exact ⟨.list [], rfl, .list _ _ (.nil _), trivial,
        Nat.le_refl _⟩
  | node u => cases h
  | sum sum => cases h

/- The default of a node, from the defaults of its fields. -/
theorem fits_zeroWith
    {t : NodeType}
    {nodeZero : NodeType → Tree}
    {levels : Nat}
    (h : ∀ f ∈ t.fields, f.presence ≠ .optional →
      ∃ v, f.shape.zero? nodeZero = some v ∧
        v.Fits f.shape levels) :
    (t.zeroWith nodeZero).Fits (.node t) (levels + 1) := by
  apply fits_node
  rw [List.forall₂_map_right_iff, List.forall₂_same]
  intro f hField
  by_cases hPresence : f.presence = .optional
  · rw [hPresence]
    exact .absent hPresence
  · rcases h f hField hPresence with ⟨v, hZero, hFits⟩
    have hCarried := NodeType.carried_of_filled hField hPresence
    cases hFilled : f.presence with
    | optional => exact absurd hFilled hPresence
    | required =>
        dsimp only
        rw [hZero]
        exact .present hCarried hFits
    | defaulted =>
        dsimp only
        rw [hZero]
        exact .present hCarried hFits

/- The default of a node outside the sums, in three levels. -/
theorem fits_zero
    {t : NodeType}
    (hOther : t.category = .other) :
    t.zero.Fits (.node t) 3 := by
  apply fits_zeroWith
  intro f hField hPresence
  have hShallow := NodeType.isShallow_of_other hOther hField hPresence
  cases hShape : f.shape with
  | node u =>
      rw [hShape, Shape.isShallow, List.all_eq_true] at hShallow
      refine ⟨_, rfl, fits_zeroWith ?_⟩
      intro g hInner hFilled
      have hFlat := hShallow g hInner
      simp only [hFilled, decide_false, Bool.false_or] at hFlat
      exact fits_of_isFlat _ _ hFlat
  | scalar type =>
      rcases fits_of_isFlat (.scalar type) _ rfl with
        ⟨v, hZero, hFits⟩
      exact ⟨v, hZero, hFits.mono (by decide)⟩
  | list elem =>
      rcases fits_of_isFlat (.list elem) _ rfl with
        ⟨v, hZero, hFits⟩
      exact ⟨v, hZero, hFits.mono (by decide)⟩
  | sum sum =>
      rw [hShape] at hShallow
      cases hShallow

------------------------------------------------------------
-- Denoted Trees
------------------------------------------------------------

/- The value of a member fits the field that its key names. -/
def MemberFits
    (t : NodeType)
    (levels : Nat)
    (m : String × Tree) : Prop :=
  ∃ f ∈ t.fields,
    f.carried = true ∧ f.key = m.1 ∧ m.2.Fits f.shape levels

/- Slots that hold what members say, or a default. -/
theorem slotFits_of_holds
    {t : NodeType}
    {values : List (String × Tree)}
    {levels : Nat}
    {slots : List (Option Tree)}
    (hValues : ∀ m ∈ values, MemberFits t (levels + 1) m)
    (hSlots : List.Forall₂ (SlotHolds values) t.fields slots) :
    List.Forall₂ (SlotFits (levels + 1)) t.fields slots := by
  have hPairs :
      List.Forall₂
        (fun f o => f ∈ t.fields ∧ SlotHolds values f o)
        t.fields slots :=
    (List.forall₂_and_left _ _).mpr ⟨fun _ hMem => hMem, hSlots⟩
  refine hPairs.imp ?_
  intro f o hParts
  rcases hParts with ⟨hField, hHolds⟩
  cases hHolds with
  | @last before after v hCarried hSplit _ =>
      have hMem : (f.key, v) ∈ values := by
        rw [hSplit]
        exact List.mem_append_right _ List.mem_cons_self
      rcases hValues _ hMem with
        ⟨g, hField', hCarried', hKey, hFits⟩
      cases NodeType.eq_of_key_eq hField' hCarried' hField hCarried
        hKey
      exact .present hCarried hFits
  | missing _ hPresence => exact .absent hPresence
  | default _ hPresence =>
      have hFlat := NodeType.isFlat_of_defaulted hField hPresence
      rcases fits_of_isFlat _ NodeType.zero hFlat with
        ⟨v, hZero, hFits⟩
      have hCarried :=
        NodeType.carried_of_filled hField (by simp [hPresence])
      rw [hZero]
      exact .present hCarried (hFits.mono (by omega))

mutual

/-
  A denoted tree can be written in two levels more than its
  document has.
-/
theorem fits_of_denotes :
    ∀ {shape : Shape} {j : Json} {v : Tree},
      Denotes shape j v → v.Fits shape (j.depth + 2)
  | _, _, _, .scalar h => by
      cases h with
      | text s => exact ⟨.text s, trivial, Nat.zero_le _⟩
      | int _ => exact ⟨.int _, trivial, Nat.zero_le _⟩
      | float _ => exact ⟨.float _, trivial, Nat.zero_le _⟩
      | flag s => exact ⟨.flag _, trivial, Nat.zero_le _⟩
  | _, _, _, .list h => by
      rcases fits_of_itemsDenote h with ⟨hShape, hCarried, hDepth⟩
      refine ⟨.list _ _ hShape, hCarried, ?_⟩
      rw [toJson, Json.depth, Json.depth, elemShape]
      omega
  | _, _, _, .zero hOther => fits_zero hOther
  | _, _, _, .node _ _ hValues hSlots =>
      fits_node (slotFits_of_holds (fits_of_membersDenote hValues)
        hSlots)
  | _, _, _, .tagged _ hValues hSlots => by
      have hSlotsFit :=
        slotFits_of_holds (fits_of_membersDenote hValues) hSlots
      rw [depth_tagged]
      exact fits_node hSlotsFit
  | _, _, _, .variant hSum hValues hSlots => by
      have hSlotsFit :=
        slotFits_of_holds (fits_of_membersDenote hValues) hSlots
      rw [depth_tagged]
      exact fits_variant hSum hSlotsFit

theorem fits_of_itemsDenote :
    ∀ {elem : Shape} {items : List Json} {trees : List Tree},
      ItemsDenote elem items trees →
      AllHaveShape trees elem ∧ ItemsCarriedOnly trees ∧
        Json.itemsDepth (itemsToJson elem trees) ≤
          Json.itemsDepth items + 2
  | _, _, _, .nil => ⟨.nil _, trivial, Nat.zero_le _⟩
  | _, _, _, .cons hItem hItems => by
      have hFits := fits_of_denotes hItem
      have hDepth := hFits.depth_le
      rcases fits_of_itemsDenote hItems with
        ⟨hShape, hCarried, hRest⟩
      refine ⟨.cons _ _ _ hFits.hasShape hShape,
        ⟨hFits.carriedOnly, hCarried⟩, ?_⟩
      rw [itemsToJson, Json.itemsDepth, Json.itemsDepth]
      omega

theorem fits_of_membersDenote :
    ∀ {t : NodeType} {members : List (String × Json)}
      {values : List (String × Tree)},
      MembersDenote t members values →
      ∀ m ∈ values, MemberFits t (Json.membersDepth members + 2) m
  | _, _, _, .nil, _, hMem => nomatch hMem
  | _, _, _, .cons hField hCarried hValue hMembers, m, hMem => by
      rw [Json.membersDepth]
      rcases List.mem_cons.mp hMem with rfl | hMem
      · exact ⟨_, hField, hCarried, rfl,
          (fits_of_denotes hValue).mono (by omega)⟩
      · rcases fits_of_membersDenote hMembers m hMem with
          ⟨f, hField', hCarried', hKey, hFits⟩
        exact ⟨f, hField', hCarried', hKey, hFits.mono (by omega)⟩

end

end Tree

------------------------------------------------------------
-- Texts of Decoded Trees
------------------------------------------------------------

/- The texts that a tree is written as. -/
def Tree.Written
    (shape : Shape)
    (v : Tree)
    (text : String) : Prop :=
  text = (v.toJson shape).compact ∨ text = (v.toJson shape).pretty

theorem Tree.Written.document
    {shape : Shape}
    {v : Tree}
    {text : String}
    (h : v.Written shape text) :
    Grammar.Document text.toUTF8.toList (v.toJson shape) := by
  have hSpelled := v.spelled_toJson shape
  rcases h with rfl | rfl
  · exact Json.document_compact _ hSpelled
  · exact Json.document_pretty _ hSpelled

/-
  A tree that was decoded from a text, and written again in
  compact or indented form, comes back at the same limit exactly
  when its document keeps to the limit; beyond it decoding fails
  with the error of the limit.  Its document nests at most two
  levels deeper than the one that it was decoded from, so two
  more levels than that one has always suffice.
-/
theorem decode_written_again
    (shape : Shape)
    (bytes : List UInt8)
    (limit : Nat)
    (v : Tree)
    (hShape : shape.isEncodable = true)
    (hDecode : decodeText shape bytes limit = .ok v)
    (text : String)
    (hText : v.Written shape text) :
    ((v.toJson shape).depth ≤ limit →
      decodeText shape text.toUTF8.toList limit = .ok v) ∧
    (limit < (v.toJson shape).depth →
      ∃ position path,
        decodeText shape text.toUTF8.toList limit =
          .error ⟨.malformed (depthMessage limit) (some position),
            path⟩) ∧
    ∃ j,
      Grammar.Document bytes j ∧ j.depth ≤ limit ∧
        (v.toJson shape).depth ≤ j.depth + 2 ∧
        ∀ limit', j.depth + 2 ≤ limit' →
          decodeText shape text.toUTF8.toList limit' = .ok v := by
  rcases decodeText_eq_ok_iff.mp hDecode with
    ⟨j, hDocument, hDepth, hDenotes⟩
  have hFits := Tree.fits_of_denotes hDenotes
  have hAgain :=
    Tree.denotes_toJson hFits.hasShape hShape hFits.carriedOnly
  have hWritten := hText.document
  refine ⟨?_, ?_, j, hDocument, hDepth, hFits.depth_le, ?_⟩
  · intro hWithin
    exact decodeText_eq_ok_iff.mpr ⟨_, hWritten, hWithin, hAgain⟩
  · intro hBeyond
    rcases decodeDocument_tooDeep
      (Scanner.stream_tells limit hWritten) hBeyond hAgain with
      ⟨_, path, ⟨position, rfl⟩, hError⟩
    exact ⟨position, path, hError⟩
  · intro limit' hEnough
    exact decodeText_eq_ok_iff.mpr
      ⟨_, hWritten, Nat.le_trans hFits.depth_le hEnough, hAgain⟩

/- The text of the empty object. -/
def emptyObjectText : List UInt8 :=
  [0x7b, 0x7d]

theorem document_emptyObjectText :
    Grammar.Document emptyObjectText (.object []) := by
  have hDocument :=
    Grammar.Document.mk Json.blanks_nil
      (Grammar.Value.emptyObject Json.blanks_nil) Json.blanks_nil
  exact hDocument

/- The empty object is the default reference to a function. -/
theorem decode_emptyObjectText :
    decodeText (.node .funcRef) emptyObjectText 2 =
      .ok (NodeType.zero .funcRef) :=
  decodeText_eq_ok_iff.mpr
    ⟨_, document_emptyObjectText, by decide, .zero rfl⟩

/- The default reference to a function, as a document. -/
def funcRefZeroJson : Json :=
  (NodeType.zero .funcRef).toJson (.node .funcRef)

/-
  The empty object decodes at a limit at which the tree that it
  denotes does not decode once it is written.
-/
theorem written_funcRef_exceeds_limit :
    decodeText (.node .funcRef) emptyObjectText 2 =
      .ok (NodeType.zero .funcRef) ∧
    ¬ decodeText (.node .funcRef)
        funcRefZeroJson.compact.toUTF8.toList 2 =
      .ok (NodeType.zero .funcRef) ∧
    ¬ decodeText (.node .funcRef)
        funcRefZeroJson.pretty.toUTF8.toList 2 =
      .ok (NodeType.zero .funcRef) := by
  have hDeep : ¬ funcRefZeroJson.depth ≤ 2 := by decide
  have hRejected :
      ∀ text,
        (NodeType.zero .funcRef).Written (.node .funcRef) text →
          ¬ decodeText (.node .funcRef) text.toUTF8.toList 2 =
            .ok (NodeType.zero .funcRef) := by
    intro text hText hOk
    rcases decodeText_eq_ok_iff.mp hOk with
      ⟨j, hDocument, hDepth, _⟩
    cases hText.document.unique hDocument
    exact hDeep hDepth
  exact ⟨decode_emptyObjectText, hRejected _ (.inl rfl),
    hRejected _ (.inr rfl)⟩

/- With three levels the default comes back, with two it fails. -/
theorem decode_funcRef_written_again :
    (Shape.node .funcRef).isEncodable = true ∧
    decodeText (.node .funcRef) emptyObjectText 2 =
      .ok (NodeType.zero .funcRef) ∧
    2 < funcRefZeroJson.depth ∧
    (∃ position path,
      decodeText (.node .funcRef)
          funcRefZeroJson.pretty.toUTF8.toList 2 =
        .error ⟨.malformed (depthMessage 2) (some position),
          path⟩) ∧
    decodeText (.node .funcRef)
        funcRefZeroJson.pretty.toUTF8.toList 3 =
      .ok (NodeType.zero .funcRef) := by
  have hDeep : 2 < funcRefZeroJson.depth := by decide
  rcases decode_written_again (.node .funcRef) emptyObjectText 2
    (NodeType.zero .funcRef) rfl decode_emptyObjectText _ (.inr rfl)
    with
    ⟨_, hFails, j, hDocument, _, _, hSuffices⟩
  cases document_emptyObjectText.unique hDocument
  exact ⟨rfl, decode_emptyObjectText, hDeep, hFails hDeep,
    hSuffices 3 (by decide)⟩

end TreeWire
