import TreeWire.Node.Encoding
import TreeWire.Proofs.Json.Printing
import TreeWire.Proofs.Node.ToldDocuments
import TreeWire.Proofs.Number.FloatReading
import TreeWire.Proofs.Source.ScannedDocuments
import TreeWire.Proofs.Source.Walking

/-
  Trees that are written and decoded again.

  A node type of a sum is told by a tag, and only the sum writes
  the tag.  So `Shape.isEncodable` leaves out such node types by
  themselves, and every field of a node type has an encodable
  shape.  A tree of an encodable shape that fills only fields
  that documents carry is denoted by its own document.  The
  document is written with a text that stands for it, so every
  source gives the tree back, up to the limit of nesting.

  Main statements:
    * `Tree.denotes_toJson`
    * `Tree.spelled_toJson`
    * `decode_encoded_tree`
-/

namespace TreeWire

------------------------------------------------------------
-- Encodable Shapes
------------------------------------------------------------

namespace Shape

/- Whether documents tell all about values of a shape. -/
def isEncodable : Shape → Bool
  | .scalar _ => true
  | .node t => t.category = .other
  | .sum _ => true
  | .list elem => elem.isEncodable

end Shape

namespace NodeType

/- The fields of every node type have encodable shapes. -/
theorem isEncodable_of_mem
    {t : NodeType}
    {f : Field}
    (h : f ∈ t.fields) :
    f.shape.isEncodable = true := by
  have hAll : ∀ g ∈ t.fields, g.shape.isEncodable = true := by
    cases t <;> decide
  exact hAll f h

/- The fields of a node type have different keys. -/
theorem nodup_keys
    (t : NodeType) :
    (t.fields.map Field.key).Nodup := by
  cases t <;> decide

/- A node outside the sums is never written without a member. -/
theorem exists_filled
    {t : NodeType}
    (h : t.category = .other) :
    ∃ f ∈ t.fields, f.presence ≠ .optional := by
  revert h
  cases t <;> decide

end NodeType

------------------------------------------------------------
-- Carried Fields
------------------------------------------------------------

namespace Tree

mutual

/- Only fields that documents carry are filled, at any depth. -/
def CarriedOnly : Tree → Prop
  | .text _ => True
  | .int _ => True
  | .float _ => True
  | .flag _ => True
  | .list items => ItemsCarriedOnly items
  | .node t slots => SlotsCarriedOnly t.fields slots

def ItemsCarriedOnly : List Tree → Prop
  | [] => True
  | item :: items => item.CarriedOnly ∧ ItemsCarriedOnly items

def SlotsCarriedOnly : List Field → List (Option Tree) → Prop
  | f :: fields, some value :: slots =>
      (f.carried = true ∧ value.CarriedOnly)
        ∧ SlotsCarriedOnly fields slots
  | _ :: fields, none :: slots => SlotsCarriedOnly fields slots
  | _, _ => True

end

-- Documents carry all but the checksum of a source file.
example :
    ∀ t ∈ NodeType.all, ∀ f ∈ t.fields,
      f.carried = false → t = .sourceFile ∧ f.key = "checksum" := by
  decide

/- The values of filled slots, under the keys of their fields. -/
def slotValues :
    List Field → List (Option Tree) → List (String × Tree)
  | f :: fields, some value :: slots =>
      (f.key, value) :: slotValues fields slots
  | _ :: fields, none :: slots => slotValues fields slots
  | _, _ => []

theorem key_mem_of_slotValues :
    ∀ {fields : List Field} {slots : List (Option Tree)}
      {m : String × Tree},
      m ∈ slotValues fields slots → m.1 ∈ fields.map Field.key
  | f :: fields, some value :: slots, m, h => by
      rw [slotValues, List.mem_cons] at h
      rw [List.map_cons, List.mem_cons]
      rcases h with rfl | h
      · exact .inl rfl
      · exact .inr (key_mem_of_slotValues h)
  | f :: fields, none :: slots, m, h => by
      rw [slotValues] at h
      rw [List.map_cons, List.mem_cons]
      exact .inr (key_mem_of_slotValues h)
  | [], _, m, h => by
      simp [slotValues] at h
  | _ :: _, [], m, h => by
      simp [slotValues] at h

/-
  Every slot holds what the members say.  The fields are walked
  with the values of the fields before them.
-/
theorem slotHolds_slotValues
    {fields : List Field}
    {slots : List (Option Tree)}
    (before : List (String × Tree))
    (hFill : FillFields slots fields)
    (hCarried : SlotsCarriedOnly fields slots)
    (hKeys : (fields.map Field.key).Nodup)
    (hBefore : ∀ m ∈ before, m.1 ∉ fields.map Field.key) :
    List.Forall₂
      (SlotHolds (before ++ slotValues fields slots))
      fields slots := by
  induction fields generalizing slots before with
  | nil =>
      cases hFill
      exact .nil
  | cons f fields ih =>
      rw [List.map_cons, List.nodup_cons] at hKeys
      have hRestBefore :
          ∀ m ∈ before, m.1 ∉ fields.map Field.key := by
        intro m hMem hKey
        exact hBefore m hMem (List.mem_cons_of_mem _ hKey)
      have hAfter :
          ∀ {slots : List (Option Tree)},
            ∀ m ∈ slotValues fields slots, m.1 ≠ f.key := by
        intro slots m hMem hKey
        apply hKeys.1
        rw [← hKey]
        exact key_mem_of_slotValues hMem
      cases hFill with
      | absent slots _ _ hOptional hRest =>
          rw [SlotsCarriedOnly] at hCarried
          rw [slotValues]
          refine .cons (.missing (.inr ?_) hOptional)
            (ih before hRest hCarried hKeys.2 hRestBefore)
          intro m hMem
          rcases List.mem_append.mp hMem with hOld | hNew
          · intro hKey
            apply hBefore m hOld
            rw [hKey]
            exact List.mem_cons_self
          · exact hAfter m hNew
      | present value slots _ _ hValue hRest =>
          rw [SlotsCarriedOnly] at hCarried
          rw [slotValues]
          refine .cons (.last hCarried.1.1 rfl hAfter) ?_
          have hTail :=
            ih (before ++ [(f.key, value)]) hRest hCarried.2 hKeys.2
          rw [List.append_assoc, List.singleton_append] at hTail
          apply hTail
          intro m hMem
          rcases List.mem_append.mp hMem with hOld | hNew
          · exact hRestBefore m hOld
          · rw [List.mem_singleton.mp hNew]
            exact hKeys.1

/- A slot that has to be filled gives a member. -/
theorem slotsToJson_ne_nil
    {fields : List Field}
    {slots : List (Option Tree)}
    (hFill : FillFields slots fields)
    (hCarried : SlotsCarriedOnly fields slots)
    (hFilled : ∃ f ∈ fields, f.presence ≠ .optional) :
    slotsToJson fields slots ≠ [] := by
  induction fields generalizing slots with
  | nil =>
      rcases hFilled with ⟨f, hMem, _⟩
      cases hMem
  | cons f fields ih =>
      cases hFill with
      | absent slots _ _ hOptional hRest =>
          rw [SlotsCarriedOnly] at hCarried
          rw [slotsToJson]
          apply ih hRest hCarried
          rcases hFilled with ⟨g, hMem, hPresence⟩
          rcases List.mem_cons.mp hMem with rfl | hMem
          · exact absurd hOptional hPresence
          · exact ⟨g, hMem, hPresence⟩
      | present value slots _ _ hValue hRest =>
          rw [SlotsCarriedOnly] at hCarried
          rw [slotsToJson, if_pos hCarried.1.1]
          exact List.cons_ne_nil _ _

------------------------------------------------------------
-- Documents Denote Their Trees
------------------------------------------------------------

/- The members of a node, with or without a tag before them. -/
theorem denotes_node
    {t : NodeType}
    {slots : List (Option Tree)}
    (hFill : FillFields slots t.fields)
    (hCarried : SlotsCarriedOnly t.fields slots) :
    List.Forall₂ (SlotHolds (slotValues t.fields slots))
      t.fields slots := by
  have hSlots :=
    slotHolds_slotValues [] hFill hCarried t.nodup_keys nofun
  rwa [List.nil_append] at hSlots

mutual

/- The document of a tree denotes the tree. -/
theorem denotes_toJson :
    ∀ {v : Tree} {shape : Shape},
      v.HasShape shape → shape.isEncodable = true →
      v.CarriedOnly → Denotes shape (v.toJson shape) v
  | _, _, .text s, _, _ => .scalar (.text s)
  | _, _, .int n, _, _ => .scalar (.int (readInt64?_intText n))
  | _, _, .float x, _, _ => .scalar (.float (readFloat?_text x))
  | _, _, .flag b, _, _ => by
      have hFlag := LiteralDenotes.flag (Json.boolText b)
      have hText : (Json.boolText b == "true") = b := by
        cases b <;> rfl
      rw [hText] at hFlag
      exact .scalar hFlag
  | _, _, .list items elem h, hShape, hCarried =>
      .list (itemsDenote_itemsToJson h hShape hCarried)
  | _, _, .node t slots h, hShape, hCarried => by
      have hOther : t.category = .other := by
        simpa [Shape.isEncodable] using hShape
      have hMembers :=
        membersDenote_slotsToJson (t := t) h hCarried fun _ hMem =>
          hMem
      exact .node hOther
        (slotsToJson_ne_nil h hCarried (NodeType.exists_filled hOther))
        hMembers (denotes_node h hCarried)
  | _, _, .variant t sum slots hSum h, _, hCarried => by
      have hMembers :=
        membersDenote_slotsToJson (t := t) h hCarried fun _ hMem =>
          hMem
      exact .variant hSum hMembers (denotes_node h hCarried)

theorem itemsDenote_itemsToJson :
    ∀ {items : List Tree} {elem : Shape},
      AllHaveShape items elem → elem.isEncodable = true →
      ItemsCarriedOnly items →
      ItemsDenote elem (itemsToJson elem items) items
  | _, _, .nil _, _, _ => .nil
  | _, _, .cons item items elem hItem hItems, hShape, hCarried =>
      .cons (denotes_toJson hItem hShape hCarried.1)
        (itemsDenote_itemsToJson hItems hShape hCarried.2)

theorem membersDenote_slotsToJson :
    ∀ {slots : List (Option Tree)} {fields : List Field}
      {t : NodeType},
      FillFields slots fields → SlotsCarriedOnly fields slots →
      (∀ f ∈ fields, f ∈ t.fields) →
      MembersDenote t (slotsToJson fields slots)
        (slotValues fields slots)
  | _, _, _, .nil, _, _ => .nil
  | _, _, _, .absent slots f fields hOptional hRest, hCarried,
      hFields => by
      rw [slotsToJson, slotValues]
      exact membersDenote_slotsToJson hRest hCarried fun g hMem =>
        hFields g (List.mem_cons_of_mem f hMem)
  | _, _, _, .present value slots f fields hValue hRest, hCarried,
      hFields => by
      have hMem := hFields f List.mem_cons_self
      have hFirst :=
        denotes_toJson hValue (NodeType.isEncodable_of_mem hMem)
          hCarried.1.2
      have hMore :=
        membersDenote_slotsToJson hRest hCarried.2 fun g hMem =>
          hFields g (List.mem_cons_of_mem f hMem)
      rw [slotsToJson, if_pos hCarried.1.1]
      exact .cons hMem hCarried.1.1 hFirst hMore

end

------------------------------------------------------------
-- Documents Are Spelled Right
------------------------------------------------------------

open Grammar Json

theorem spelled_literal
    {lit : Literal}
    (h : Scalar (utf8 (writeLiteral lit)) lit) :
    Spelled (Json.literal lit).tokens := by
  intro lit' hMem
  rw [Json.tokens, List.mem_singleton] at hMem
  cases hMem
  exact h

theorem spelled_bool
    (b : Bool) :
    Spelled (Json.bool b).tokens := by
  apply spelled_literal
  cases b with
  | true => exact .word (by decide)
  | false => exact .word (by decide)

mutual

/- Every literal in the document of a tree is spelled right. -/
theorem spelled_toJson :
    ∀ (v : Tree) (shape : Shape), Spelled (v.toJson shape).tokens
  | .text s, _ => spelled_literal (scalar_string s)
  | .int n, _ => spelled_literal (.number (number_intText n.toInt))
  | .float x, _ => spelled_literal (.number (number_text x))
  | .flag b, _ => spelled_bool b
  | .list items, shape => by
      rw [toJson, Json.tokens, spelled_cons_iff (by simp),
        spelled_append_iff]
      exact ⟨spelled_itemsToJson items _, by simp [Spelled]⟩
  | .node t slots, shape => by
      have hSlots := spelled_slotsToJson t.fields slots
      rw [toJson, Json.tokens, spelled_cons_iff (by simp),
        spelled_append_iff]
      refine ⟨?_, by simp [Spelled]⟩
      cases shape with
      | sum sum =>
          have hTag := spelled_literal (scalar_string t.name)
          rw [tagMembers, List.singleton_append, Json.memberTokens,
            spelled_cons_iff (by simp), spelled_append_iff]
          exact ⟨hTag, hSlots⟩
      | scalar type => exact hSlots
      | node u => exact hSlots
      | list elem => exact hSlots

theorem spelled_itemsToJson :
    ∀ (items : List Tree) (elem : Shape),
      Spelled (Json.itemTokens (itemsToJson elem items))
  | [], _ => nofun
  | item :: items, elem => by
      rw [itemsToJson, Json.itemTokens, spelled_append_iff]
      exact ⟨spelled_toJson item elem,
        spelled_itemsToJson items elem⟩

theorem spelled_slotsToJson :
    ∀ (fields : List Field) (slots : List (Option Tree)),
      Spelled (Json.memberTokens (slotsToJson fields slots))
  | f :: fields, some value :: slots => by
      have hRest := spelled_slotsToJson fields slots
      rw [slotsToJson]
      split
      · rw [Json.memberTokens, spelled_cons_iff (by simp),
          spelled_append_iff]
        exact ⟨spelled_toJson value f.shape, hRest⟩
      · exact hRest
  | _ :: fields, none :: slots => by
      rw [slotsToJson]
      exact spelled_slotsToJson fields slots
  | [], _ => by
      rw [slotsToJson]
      · exact nofun
      · nofun
      · nofun
  | _ :: _, [] => by
      rw [slotsToJson]
      · exact nofun
      · nofun
      · nofun

end

end Tree

------------------------------------------------------------
-- Round Trip
------------------------------------------------------------

/-
  A tree that is written, in compact or in indented text or as a
  parsed document, and decoded again comes back if its document
  keeps to the limit of nesting, and fails with the error of the
  limit if not.
-/
theorem decode_encoded_tree
    (shape : Shape)
    (v : Tree)
    (limit : Nat)
    (hShape : shape.isEncodable = true)
    (hValue : v.HasShape shape)
    (hCarried : v.CarriedOnly) :
    ((v.toJson shape).depth ≤ limit →
      decodeText shape
          (v.toJson shape).compact.toUTF8.toList limit = .ok v ∧
        decodeText shape
          (v.toJson shape).pretty.toUTF8.toList limit = .ok v ∧
        decodeParsed shape (v.toJson shape) limit = .ok v) ∧
    (limit < (v.toJson shape).depth →
      (∃ position path,
        decodeText shape
            (v.toJson shape).compact.toUTF8.toList limit =
          .error ⟨.malformed (depthMessage limit) (some position),
            path⟩) ∧
        (∃ position path,
          decodeText shape
              (v.toJson shape).pretty.toUTF8.toList limit =
            .error ⟨.malformed (depthMessage limit) (some position),
              path⟩) ∧
        ∃ path,
          decodeParsed shape (v.toJson shape) limit =
            .error ⟨.malformed (depthMessage limit) none, path⟩) := by
  have hDenotes := Tree.denotes_toJson hValue hShape hCarried
  have hSpelled := Tree.spelled_toJson v shape
  have hCompact :=
    Scanner.stream_tells limit (Json.document_compact _ hSpelled)
  have hPretty :=
    Scanner.stream_tells limit (Json.document_pretty _ hSpelled)
  have hParsed := ValueWalk.stream_tells (v.toJson shape) limit
  constructor
  · intro hDepth
    exact ⟨(decodeDocument_eq_ok_iff hCompact).mpr
        ⟨hDepth, hDenotes⟩,
      (decodeDocument_eq_ok_iff hPretty).mpr ⟨hDepth, hDenotes⟩,
      (decodeDocument_eq_ok_iff hParsed).mpr ⟨hDepth, hDenotes⟩⟩
  · intro hDepth
    rcases decodeDocument_tooDeep hCompact hDepth hDenotes with
      ⟨_, path, ⟨position, rfl⟩, hError⟩
    rcases decodeDocument_tooDeep hPretty hDepth hDenotes with
      ⟨_, path', ⟨position', rfl⟩, hError'⟩
    rcases decodeDocument_tooDeep hParsed hDepth hDenotes with
      ⟨_, path'', rfl, hError''⟩
    exact ⟨⟨position, path, hError⟩, ⟨position', path', hError'⟩,
      ⟨path'', hError''⟩⟩

/- One tenth. -/
def oneTenth : Binary64 :=
  ⟨false, 7205759403792794, -56, by decide, by decide, by decide,
    by decide⟩

/- The negation of one tenth, with an odd name for the operator. -/
def negatedTenth : Tree :=
  .node .unaryExpr
    [some (.text "\"−\t\""),
     some (.node .floatLit [some (.float oneTenth)])]

/- The document of the tree. -/
def negatedTenthJson : Json :=
  negatedTenth.toJson (.sum .expr)

/- The tree comes back at its own depth, and not below it. -/
theorem decode_negatedTenth :
    (Shape.sum .expr).isEncodable = true ∧
    negatedTenth.HasShape (.sum .expr) ∧
    negatedTenth.CarriedOnly ∧
    (negatedTenthJson.depth ≤ 2 ∧
      decodeText (.sum .expr)
          negatedTenthJson.compact.toUTF8.toList 2 =
        .ok negatedTenth ∧
      decodeText (.sum .expr)
          negatedTenthJson.pretty.toUTF8.toList 2 =
        .ok negatedTenth ∧
      decodeParsed (.sum .expr) negatedTenthJson 2 =
        .ok negatedTenth) ∧
    1 < negatedTenthJson.depth ∧
      (∃ position path,
        decodeText (.sum .expr)
            negatedTenthJson.compact.toUTF8.toList 1 =
          .error ⟨.malformed (depthMessage 1) (some position),
            path⟩) ∧
      (∃ position path,
        decodeText (.sum .expr)
            negatedTenthJson.pretty.toUTF8.toList 1 =
          .error ⟨.malformed (depthMessage 1) (some position),
            path⟩) ∧
      ∃ path,
        decodeParsed (.sum .expr) negatedTenthJson 1 =
          .error ⟨.malformed (depthMessage 1) none, path⟩ := by
  have hShape : negatedTenth.HasShape (.sum .expr) :=
    .variant .unaryExpr .expr _ rfl
      (.present _ _ _ _ (.text _)
        (.present _ _ _ _
          (.variant .floatLit .expr _ rfl
            (.present _ _ _ _ (.float oneTenth) .nil))
          .nil))
  have hCarried : negatedTenth.CarriedOnly :=
    ⟨⟨rfl, trivial⟩, ⟨rfl, ⟨⟨rfl, trivial⟩, trivial⟩⟩, trivial⟩
  have hDepth : negatedTenthJson.depth = 2 := rfl
  have hAtTwo := decode_encoded_tree (.sum .expr) negatedTenth 2 rfl
    hShape hCarried
  have hAtOne := decode_encoded_tree (.sum .expr) negatedTenth 1 rfl
    hShape hCarried
  have hWithin : negatedTenthJson.depth ≤ 2 := by rw [hDepth]
  have hBeyond : 1 < negatedTenthJson.depth := by
    rw [hDepth]
    decide
  exact ⟨rfl, hShape, hCarried, ⟨hWithin, hAtTwo.1 hWithin⟩, hBeyond,
    hAtOne.2 hBeyond⟩

end TreeWire
