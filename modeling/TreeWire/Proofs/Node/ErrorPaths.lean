import TreeWire.Proofs.Node.Failures
import TreeWire.Proofs.Node.ToldDocuments
import TreeWire.Proofs.Source.ScannedDocuments
import TreeWire.Proofs.Source.Walking

/-
  Every failure of decoding is located: its path leads to a part
  of the document at which its cause is justified, and all that
  is read before that part conforms.

  Main statements:
    * `Json.decodeAs_eq_error_iff`
    * `decodeDocument_eq_decodeAs`
    * `decode_error_iff_located`
-/

namespace TreeWire

namespace Json

variable {j : Json} {shape : Shape} {e : DecodeError}
variable {t : NodeType} {members : List (String × Json)}

------------------------------------------------------------
-- Errors Are Located
------------------------------------------------------------

/- An object with a tag is a node of a type, or has a bad tag. -/
theorem tagged_cases
    {tag name : String}
    (members : List (String × Json))
    (hTag : shape.tag? = some tag)
    (hName : shape.objectName? = some name) :
    (∃ t rest, NodeMembers shape (.object members) t rest) ∨
      ∃ cause, Justified shape (.object members) cause := by
  cases members with
  | nil => exact .inr ⟨_, .empty hTag hName⟩
  | cons m members =>
      rcases m with ⟨key, value⟩
      by_cases hKey : key = tag
      · subst hKey
        by_cases hString : ∃ found, value = .string found
        · rcases hString with ⟨found, rfl⟩
          cases shape with
          | scalar type => cases hTag
          | list elem => cases hTag
          | node t =>
              by_cases hFound : found = t.name
              · subst hFound
                exact .inl ⟨t, members, .tagged hTag⟩
              · exact .inr ⟨_, .otherVariant hTag hFound⟩
          | sum sum =>
              cases hTag
              by_cases hFound :
                ∃ t : NodeType,
                  t.category = sum.category ∧ t.name = found
              · rcases hFound with ⟨t, hSum, rfl⟩
                exact .inl ⟨t, members, .variant hSum⟩
              · refine .inr ⟨_, .unknown fun t hSum hEq => ?_⟩
                exact hFound ⟨t, hSum, hEq⟩
        · exact .inr ⟨_, .tagKind hTag fun found hEq =>
            hString ⟨found, hEq⟩⟩
      · exact .inr ⟨_, .misplaced hTag hKey⟩

/-
  An object is a node of a type, or fails for a cause of its own,
  or is the empty object of a node outside the sums.
-/
theorem object_cases
    {name : String}
    (members : List (String × Json))
    (hName : shape.objectName? = some name) :
    (∃ t rest, NodeMembers shape (.object members) t rest) ∨
      (∃ cause, Justified shape (.object members) cause) ∨
      ∃ v, (Json.object members).decodeAs shape = .ok v := by
  cases hTag : shape.tag? with
  | some tag =>
      rcases tagged_cases members hTag hName with hNode | hCause
      · exact .inl hNode
      · exact .inr (.inl hCause)
  | none =>
      cases shape with
      | scalar type => cases hName
      | list elem => cases hName
      | sum sum => cases hTag
      | node t =>
          rw [Shape.tag?] at hTag
          have hOther := NodeType.category_eq_other_iff.mp hTag
          cases members with
          | nil =>
              exact .inr (.inr ⟨t.zero,
                decodeAs_empty_node_iff.mpr (.zero hOther)⟩)
          | cons m members =>
              exact .inl ⟨t, _, .plain hOther (by simp)⟩

theorem tokens_sublist_of_mem_items
    {items : List Json}
    {item : Json}
    (h : item ∈ items) :
    item.tokens.Sublist (itemTokens items) := by
  induction items with
  | nil => cases h
  | cons first items ih =>
      rw [itemTokens]
      rcases List.mem_cons.mp h with rfl | hRest
      · exact List.sublist_append_left _ _
      · exact List.sublist_append_of_sublist_right (ih hRest)

theorem tokens_sublist_of_mem_members
    {members : List (String × Json)}
    {m : String × Json}
    (h : m ∈ members) :
    m.2.tokens.Sublist (memberTokens members) := by
  induction members with
  | nil => cases h
  | cons first members ih =>
      rcases first with ⟨key, value⟩
      rw [memberTokens]
      apply List.Sublist.cons
      rcases List.mem_cons.mp h with rfl | hRest
      · exact List.sublist_append_left _ _
      · exact List.sublist_append_of_sublist_right (ih hRest)

/- A part has fewer tokens than the whole, and none of its own. -/
theorem part_of_tokens
    {part : Json}
    {inner : List Token}
    {first last : Token}
    (whole : Json)
    (hWhole : whole.tokens = first :: (inner ++ [last]))
    (hPart : part.tokens.Sublist inner) :
    part.tokens.length < whole.tokens.length ∧
      (Spelled whole.tokens → Spelled part.tokens) := by
  have hLength := hPart.length_le
  rw [hWhole]
  constructor
  · simp only [List.length_cons, List.length_append]
    omega
  · intro hSpelled lit hMem
    apply hSpelled lit
    exact List.mem_cons_of_mem _
      (List.mem_append_left _ (hPart.subset hMem))

theorem mem_of_nodeMembers
    (h : NodeMembers shape j t members) :
    ∃ all, j = .object all ∧ ∀ m ∈ members, m ∈ all := by
  cases h with
  | plain => exact ⟨_, rfl, fun _ hMem => hMem⟩
  | tagged =>
      exact ⟨_, rfl, fun _ hMem => List.mem_cons_of_mem _ hMem⟩
  | variant =>
      exact ⟨_, rfl, fun _ hMem => List.mem_cons_of_mem _ hMem⟩

/- The error of a part is located in the part. -/
def PartsLocated
    (parts : List Json) : Prop :=
  ∀ part ∈ parts, ∀ (shape : Shape) (e : DecodeError),
    part.decodeAs shape = .error e → Located shape part e

/- The members of a node fail one by one, and then its slots. -/
theorem located_of_nodeMembers
    (hNode : NodeMembers shape j t members)
    (hParts : PartsLocated (members.map Prod.snd))
    (h : j.decodeAs shape = .error e) :
    Located shape j e := by
  rw [decodeAs_of_nodeMembers hNode,
    Action.except_bind_eq_error_iff] at h
  rcases h with hMember | ⟨done, hDone, hSlots⟩
  · rcases decodeMembers_eq_error_iff.mp hMember with
      ⟨before, key, value, after, values, rfl, hBefore, hFails⟩
    rcases decodeMember_eq_error_iff.mp hFails with
      ⟨hKey, rfl⟩ | ⟨f, hField, hCarried, rfl, e', hValue, rfl⟩
    · exact ⟨shape, j, .here, .unexpected hNode hBefore hKey⟩
    · rcases hParts value (by simp) f.shape e' hValue with
        ⟨target, s, hReaches, hJustified⟩
      exact ⟨target, s,
        .field hNode hBefore hField hCarried hReaches, hJustified⟩
  · rcases (decodeMembers_eq_ok_iff _ _ _ _).mp hDone with
      ⟨values, hValues, rfl⟩
    rw [List.append_nil, NodeType.ofMembers_eq_error_iff] at hSlots
    rcases hSlots with
      ⟨before, f, after, hFields, hMissing, hFirst, rfl⟩
    exact ⟨shape, j, .here,
      .missing hNode hValues hFields hMissing hFirst⟩

theorem located_of_items
    {items : List Json}
    {elem : Shape}
    (hParts : PartsLocated items)
    (h : decodeItems items elem 0 = .error e) :
    Located (.list elem) (.array items) e := by
  rcases decodeItems_eq_error_iff.mp h with
    ⟨before, item, after, trees, e', rfl, hBefore, hItem, rfl⟩
  rcases hParts item (by simp) elem e' hItem with
    ⟨target, s, hReaches, hJustified⟩
  rw [Nat.zero_add]
  exact ⟨target, s, .index hBefore hReaches, hJustified⟩

/- A cause of the document itself is the only error. -/
theorem located_of_justified
    {cause : Cause}
    (hJustified : Justified shape j cause)
    (h : j.decodeAs shape = .error e) :
    Located shape j e := by
  rw [decodeAs_of_justified hJustified] at h
  cases h
  exact ⟨shape, j, .here, hJustified⟩

/- An object of which the parts are located. -/
theorem located_of_object
    {name : String}
    (hName : shape.objectName? = some name)
    (hParts :
      ∀ members, j = .object members →
        PartsLocated (members.map Prod.snd))
    (h : j.decodeAs shape = .error e) :
    Located shape j e := by
  cases j with
  | literal lit =>
      exact located_of_justified (.noObject hName nofun) h
  | array items =>
      exact located_of_justified (.noObject hName nofun) h
  | object members =>
      rcases object_cases members hName with
        ⟨t, rest, hNode⟩ | ⟨cause, hJustified⟩ | ⟨v, hOk⟩
      · apply located_of_nodeMembers hNode _ h
        intro part hMem
        rcases mem_of_nodeMembers hNode with ⟨all, hEq, hAll⟩
        cases hEq
        rcases List.mem_map.mp hMem with ⟨m, hRest, rfl⟩
        exact hParts members rfl m.2
          (List.mem_map_of_mem (hAll m hRest))
      · exact located_of_justified hJustified h
      · rw [hOk] at h
        cases h

/-
  Every error of decoding is located.  The induction is on the
  number of tokens, which is less for the parts of a document.
-/
theorem located_of_error
    (j : Json)
    (shape : Shape)
    (e : DecodeError)
    (hSpelled : Spelled j.tokens)
    (h : j.decodeAs shape = .error e) :
    Located shape j e := by
  induction hLength : j.tokens.length using Nat.strongRecOn
    generalizing j shape e with
  | _ length ih =>
      subst hLength
      have hMembers :
          ∀ members, j = .object members →
            PartsLocated (members.map Prod.snd) := by
        intro members hEq part hMem
        subst hEq
        rcases List.mem_map.mp hMem with ⟨m, hMember, rfl⟩
        rcases part_of_tokens (.object members) rfl
          (tokens_sublist_of_mem_members hMember) with
          ⟨hLess, hPart⟩
        intro shape e hError
        exact ih _ hLess m.2 shape e (hPart hSpelled) hError rfl
      cases shape with
      | scalar type =>
          exact located_of_justified
            (justified_of_scalar_error hSpelled h) h
      | node t => exact located_of_object rfl hMembers h
      | sum sum => exact located_of_object rfl hMembers h
      | list elem =>
          cases j with
          | literal lit =>
              exact located_of_justified (.noArray nofun) h
          | object members =>
              exact located_of_justified (.noArray nofun) h
          | array items =>
              rw [decodeAs, Action.except_map_eq_error_iff] at h
              refine located_of_items ?_ h
              intro item hMem
              rcases part_of_tokens (.array items) rfl
                (tokens_sublist_of_mem_items hMem) with
                ⟨hLess, hPart⟩
              intro shape e hError
              exact ih _ hLess item shape e (hPart hSpelled) hError
                rfl

/-
  Recursion on a document fails exactly with the error whose path
  reaches a part at which its cause is justified.
-/
theorem decodeAs_eq_error_iff
    (hSpelled : Spelled j.tokens) :
    j.decodeAs shape = .error e ↔ Located shape j e := by
  constructor
  · exact located_of_error j shape e hSpelled
  · intro hLocated
    rcases hLocated with ⟨target, s, hReaches, hJustified⟩
    rw [decodeAs_of_reaches hReaches
      (decodeAs_of_justified hJustified)]
    simp [DecodeError.here]

end Json

------------------------------------------------------------
-- Texts and Parsed Documents
------------------------------------------------------------

/-
  Decoding from a stream that tells a document within the limit
  is recursion on the document, errors included.
-/
theorem decodeDocument_eq_decodeAs
    {μ : Type}
    [TokenMachine μ]
    [LawfulMachine μ]
    {Site : Option Position → Prop}
    {limit : Nat}
    {s : Stream μ}
    {j : Json}
    (shape : Shape)
    (h : s.Tells Site limit j)
    (hDepth : j.depth ≤ limit) :
    (decodeDocument shape s).1 = j.decodeAs shape := by
  rcases h.delivers hDepth with ⟨s₁, s₂, hTokens, hEof, _⟩
  have hGives := decode_tokens shape hTokens
  cases hResult : j.decodeAs shape with
  | ok v =>
      have hDenotes := (Json.decodeAs_eq_ok_iff j shape v).mp hResult
      rw [(decodeDocument_of_delivers hTokens hEof).mpr
        ⟨hDenotes, rfl⟩]
  | error e =>
      rw [hResult] at hGives
      rcases hGives.exists_of_error with ⟨s', hError⟩
      rw [decodeDocument, Action.bind_error hError]

/-
  Where a document keeps to the limit of nesting, decoding it from
  a tree or from a text fails with an error exactly when the path
  of the error leads to a part of the document, behind parts that
  conform, and the cause of the error is justified at that part.
-/
theorem decode_error_iff_located
    (shape : Shape)
    (j : Json)
    (limit : Nat)
    (hDepth : j.depth ≤ limit)
    (e : DecodeError) :
    (Json.Spelled j.tokens →
      (decodeParsed shape j limit = .error e ↔
        Located shape j e)) ∧
    ∀ bytes, Grammar.Document bytes j →
      (decodeText shape bytes limit = .error e ↔
        Located shape j e) := by
  constructor
  · intro hSpelled
    rw [← Json.decodeAs_eq_error_iff hSpelled, decodeParsed,
      decodeDocument_eq_decodeAs shape
        (ValueWalk.stream_tells j limit) hDepth]
  · intro bytes hDocument
    rw [← Json.decodeAs_eq_error_iff hDocument.spelled, decodeText,
      decodeDocument_eq_decodeAs shape
        (Scanner.stream_tells limit hDocument) hDepth]

/- An identifier. -/
def identJson
    (name : String) : Json :=
  .object
    [("expression_name", .string "Ident"), ("name", .string name)]

/- An integer literal that does not fit in 64 bits. -/
def largeLiteral : Json :=
  .object
    [("expression_name", .string "IntLit"),
     ("value", .int (2 ^ 63))]

/- A call with that literal for its second argument. -/
def largeArgument : Json :=
  .object
    [("expression_name", .string "CallExpr"),
     ("function", identJson "f"),
     ("arguments", .array [identJson "x", largeLiteral])]

/- An identifier denotes its node. -/
theorem identJson_denotes
    (name : String) :
    Denotes (.sum .expr) (identJson name)
      (.node .ident [some (.text name)]) := by
  have hField :
      Field.required "name" (.scalar .string) ∈
        NodeType.ident.fields :=
    List.mem_cons_self
  have hName : Denotes (.scalar .string) (.string name) (.text name) :=
    .scalar (.text name)
  have hSlot :
      SlotHolds [("name", .text name)]
        (.required "name" (.scalar .string)) (some (.text name)) :=
    .last rfl (List.nil_append _).symm nofun
  exact .variant (t := .ident) rfl (.cons hField rfl hName .nil)
    (.cons hSlot .nil)

/- The error is at the value of the second argument. -/
theorem largeArgument_error_located :
    largeArgument.depth ≤ 3 ∧
    Json.Spelled largeArgument.tokens ∧
    decodeParsed (.sum .expr) largeArgument 3 =
      .error ⟨.invalidLiteral "int64" (intText (2 ^ 63)),
        [.field "CallExpr" "arguments", .index 1,
         .field "IntLit" "value"]⟩ := by
  have hDepth : largeArgument.depth ≤ 3 := by decide
  have hSpelled : Json.Spelled largeArgument.tokens := by
    intro lit hMem
    have hCases :
        (∃ text, lit = ⟨.string, text⟩) ∨
          lit = ⟨.int, intText (2 ^ 63)⟩ := by
      simp only [largeArgument, largeLiteral, identJson, Json.tokens,
        Json.memberTokens, Json.itemTokens, Json.string, Json.int,
        List.append_nil, List.cons_append, List.nil_append,
        List.mem_cons, reduceCtorEq, Token.literal.injEq,
        List.not_mem_nil, or_false, false_or] at hMem
      grind
    rcases hCases with ⟨text, rfl⟩ | rfl
    · exact Json.scalar_string text
    · exact .number (number_intText _)
  have hFunction :
      MembersDenote .callExpr [("function", identJson "f")]
        [("function", .node .ident [some (.text "f")])] :=
    .cons (f := .required "function" (.sum .expr)) (by decide) rfl
      (identJson_denotes "f") .nil
  have hValue :
      NodeMembers (.sum .expr) largeLiteral .intLit
        ([] ++ ("value", .int (2 ^ 63)) :: []) :=
    .variant (t := .intLit) rfl
  have hLiteral :
      Reaches (.sum .expr) largeLiteral [.field "IntLit" "value"]
        (.scalar .int64) (.int (2 ^ 63)) :=
    .field (t := .intLit) (f := .required "value" (.scalar .int64))
      hValue .nil (by decide) rfl .here
  have hArguments :
      Reaches (.list (.sum .expr))
        (.array ([identJson "x"] ++ largeLiteral :: []))
        [.index 1, .field "IntLit" "value"]
        (.scalar .int64) (.int (2 ^ 63)) :=
    .index (.cons (identJson_denotes "x") .nil) hLiteral
  have hMembers :
      NodeMembers (.sum .expr) largeArgument .callExpr
        ([("function", identJson "f")] ++
          ("arguments", .array [identJson "x", largeLiteral]) ::
            []) :=
    .variant (t := .callExpr) rfl
  refine ⟨hDepth, hSpelled, ?_⟩
  apply ((decode_error_iff_located (.sum .expr) largeArgument 3
    hDepth _).1 hSpelled).mpr
  refine ⟨.scalar .int64, .int (2 ^ 63), ?_,
    .intRange (.int (readInt?_intText (2 ^ 63)) (.inr (le_refl _)))⟩
  exact .field (t := .callExpr)
    (f := .sequence "arguments" (.sum .expr))
    hMembers hFunction (by decide) rfl hArguments

end TreeWire
