import TreeWire.Proofs.Node.Failures
import TreeWire.Proofs.Node.Simulation
import TreeWire.Proofs.Source.InputErrors
import TreeWire.Proofs.Source.ScannedDocuments

/-
  Nodes decoded alone, and as one of a sum.

  A node of a sum is decoded in two ways.  Its own decoder knows
  which type the tag has to name; the decoder of the sum looks
  the type up.  Both read the opening mark and the tag alike, and
  behind the tag both read the fields of the same type.

  So they part in two places only: at an empty object, and at a
  tag that names another type.  No other error is about the type
  that the tag names, since the input fails for reasons of its
  own and errors within fields have a path.

  Key definitions include:
    * `DecodeError.AtTag`
    * `readOpening`
    * `Openings`
    * `DecodersAgree`

  Main statements:
    * `readFields_not_atTag`
    * `decode_openings`
    * `node_decoder_agrees_with_sum`
-/

namespace TreeWire

variable {μ : Type} [TokenMachine μ]

------------------------------------------------------------
-- Errors That Are Not About the Tag
------------------------------------------------------------

/-
  A stream beside itself: readings keep that it fails on its
  input only.
-/
def Simulation.onInput
    (μ : Type)
    [TokenMachine μ] :
    Simulation μ μ where
  Rel s s' := s = s' ∧ s.FailsOnInput
  Errors := Eq
  Stops := fun _ => False
  errors_refl := fun _ => rfl
  errors_hop := errors_hop_eq
  stops_hop := fun _ h => h
  next := by
    rintro s _ ⟨rfl, h⟩
    cases hNext : s.next with
    | mk result s₁ =>
        cases result with
        | ok t =>
            exact .inl ⟨t, t, s₁, s₁, rfl, rfl, .refl t,
              ⟨rfl, h.next hNext⟩, rfl, h.hold hNext⟩
        | error e =>
            exact .inr (.inl ⟨e, e, s₁, s₁, rfl, rfl, rfl⟩)

/- The error of a tag that names another type. -/
def DecodeError.AtTag
    (e : DecodeError) : Prop :=
  ∃ expected found, e = .here (.wrongVariant expected found)

theorem DecodeError.OfInput.not_atTag
    {e : DecodeError}
    (h : e.OfInput) :
    ¬ e.AtTag := by
  rintro ⟨expected, found, rfl⟩
  cases h

theorem not_atTag_here
    {cause : Cause}
    (h : ∀ expected found, cause ≠ .wrongVariant expected found) :
    ¬ (DecodeError.here cause).AtTag := by
  rintro ⟨expected, found, hEq⟩
  exact h expected found (congrArg DecodeError.cause hEq)

theorem literalText_not_atTag
    {t : Token}
    {kind : LiteralKind}
    {e : DecodeError}
    (h : t.literalText kind = .error e) :
    ¬ e.AtTag := by
  rw [Token.literalText_eq_error h]
  exact not_atTag_here nofun

/- An error within a field has a path. -/
theorem mapError_not_atTag
    {α σ : Type}
    {x : Reading σ α}
    {node key : String}
    {s s' : σ}
    {e : DecodeError}
    (h :
      Reading.mapError (·.within node key) x s = (.error e, s')) :
    ¬ e.AtTag := by
  unfold Reading.mapError at h
  split at h
  · cases h
  · cases h
    rintro ⟨expected, found, hEq⟩
    cases congrArg DecodeError.path hEq

section

variable {s s' : Stream μ}
variable {e : DecodeError}

/- A reading of one token, and what is made of that token. -/
theorem nextToken_not_atTag
    {α : Type}
    {f : Token → Reading (Stream μ) α}
    (hInput : s.FailsOnInput)
    (hRest :
      ∀ {t s₁}, s.next = (.ok t, s₁) →
        f t s₁ = (.error e, s') → ¬ e.AtTag)
    (h : (nextToken >>= f) s = (.error e, s')) :
    ¬ e.AtTag := by
  rcases Action.bind_eq_error_iff.mp h with
    hNext | ⟨t, s₁, hNext, hAnswer⟩
  · exact (hInput.error hNext).not_atTag
  · exact hRest hNext hAnswer

/- A token that does not pass a test has the wrong shape. -/
theorem testToken_not_atTag
    {α : Type}
    {test : Token → Prop}
    [DecidablePred test]
    {value : Token → α}
    {text : String}
    (hInput : s.FailsOnInput)
    (h :
      (do
        let t ← nextToken
        if test t then
          pure (value t)
        else
          throw (Token.wrongShape text t) :
            Reading (Stream μ) α) s = (.error e, s')) :
    ¬ e.AtTag := by
  refine nextToken_not_atTag hInput ?_ h
  intro t s₁ _ hAnswer
  split at hAnswer
  · cases hAnswer
  · cases hAnswer
    exact not_atTag_here nofun

theorem expectMark_not_atTag
    {mark : Token}
    (hInput : s.FailsOnInput)
    (h : expectMark mark s = (.error e, s')) :
    ¬ e.AtTag :=
  testToken_not_atTag hInput h

theorem closes_not_atTag
    {mark : Token}
    (hInput : s.FailsOnInput)
    (h : closes mark s = (.error e, s')) :
    ¬ e.AtTag := by
  refine nextToken_not_atTag hInput ?_ h
  intro t s₁ _ hAnswer
  split at hAnswer
  · cases hAnswer
  · cases hAnswer

theorem nextKey_not_atTag
    (hInput : s.FailsOnInput)
    (h : nextKey s = (.error e, s')) :
    ¬ e.AtTag := by
  refine nextToken_not_atTag hInput ?_ h
  intro t s₁ _ hAnswer
  cases t with
  | key name => cases hAnswer
  | objectClose => cases hAnswer
  | eof => cases hAnswer
  | _ =>
      cases hAnswer
      exact not_atTag_here nofun

theorem nextValue_not_atTag
    (hInput : s.FailsOnInput)
    (h : nextValue s = (.error e, s')) :
    ¬ e.AtTag :=
  testToken_not_atTag hInput h

theorem readTag_not_atTag
    {tag : String}
    (hInput : s.FailsOnInput)
    (h : readTag tag s = (.error e, s')) :
    ¬ e.AtTag := by
  refine nextToken_not_atTag hInput ?_ h
  intro t s₁ hNext hTag
  cases t with
  | key key =>
      dsimp only at hTag
      split at hTag
      · rcases Action.bind_eq_error_iff.mp hTag with
          hValue | ⟨u, s₂, _, hText⟩
        · exact nextValue_not_atTag (hInput.next hNext) hValue
        · exact literalText_not_atTag (congrArg Prod.fst hText)
      · cases hTag
        exact not_atTag_here nofun
  | _ =>
      cases hTag
      exact not_atTag_here nofun

theorem finish_not_atTag
    (hInput : s.FailsOnInput)
    (h : finish s = (.error e, s')) :
    ¬ e.AtTag :=
  testToken_not_atTag hInput h

theorem readMember_not_atTag
    {t : NodeType}
    {d : Shape → Reading (Stream μ) Tree}
    {key : String}
    (hInput : s.FailsOnInput)
    (h : readMember t d key s = (.error e, s')) :
    ¬ e.AtTag := by
  unfold readMember at h
  split at h
  · rcases Action.bind_eq_error_iff.mp h with
      hValue | ⟨token, s₁, _, hMember⟩
    · exact nextValue_not_atTag hInput hValue
    · cases hField : t.field? key with
      | none =>
          rw [hField] at hMember
          cases hMember
          exact not_atTag_here nofun
      | some f =>
          rw [hField] at hMember
          exact mapError_not_atTag hMember
  · cases hField : t.field? key with
    | none =>
        rw [hField] at h
        cases h
        exact not_atTag_here nofun
    | some f =>
        rw [hField] at h
        exact mapError_not_atTag h

variable [LawfulMachine μ]

/-
  The induction is on the parts that are left.  A member that is
  read leaves a stream that still fails on its input only.
-/
theorem readMembers_not_atTag
    {t : NodeType}
    {d : Shape → Reading (Stream μ) Tree}
    {b : Nat}
    (hDecoders : (Simulation.onInput μ).Decoders b b d d) :
    ∀ (parts : Nat) (members : List (String × Tree))
      {s s' : Stream μ} {e : DecodeError},
      s.FailsOnInput → s.left < b →
      readMembers t d parts members s = (.error e, s') →
      ¬ e.AtTag
  | 0, _, _, _, _, _, _, h => by
      cases h
      exact not_atTag_here nofun
  | parts + 1, members, s, s', e, hInput, hLeft, h => by
      rcases Action.bind_eq_error_iff.mp h with
        hKey | ⟨name, s₁, hKey, hRest⟩
      · exact nextKey_not_atTag hInput hKey
      · rcases nextKey_ok hKey with
          ⟨key, rfl, hNext⟩ | ⟨rfl, _⟩
        · have hInput₁ := hInput.next hNext
          have hLeft₁ := Stream.left_next_le hNext
          rcases Action.bind_eq_error_iff.mp hRest with
            hMember | ⟨value, s₂, hMember, hMembers⟩
          · exact readMember_not_atTag hInput₁ hMember
          · have hOutcome :=
              (Simulation.onInput μ).readMember hDecoders t key
                ⟨rfl, hInput₁⟩ (by omega) (by omega)
            rw [hMember] at hOutcome
            cases hOutcome with
            | ok _ hStates hLt _ =>
                exact readMembers_not_atTag hDecoders parts _
                  hStates.2 (by omega) hMembers
        · cases hRest

/- No error of the fields of a node is about its tag. -/
theorem readFields_not_atTag
    {t : NodeType}
    {d : Shape → Reading (Stream μ) Tree}
    {b parts : Nat}
    (hDecoders : (Simulation.onInput μ).Decoders b b d d)
    (hInput : s.FailsOnInput)
    (hLeft : s.left < b)
    (h : readFields t d parts s = (.error e, s')) :
    ¬ e.AtTag := by
  rcases Action.bind_eq_error_iff.mp h with
    hMembers | ⟨members, s₁, _, hNode⟩
  · exact readMembers_not_atTag hDecoders parts [] hInput hLeft
      hMembers
  · have hSlots : t.ofMembers members = .error e :=
      congrArg Prod.fst hNode
    rw [← List.reverse_reverse members,
      NodeType.ofMembers_eq_error_iff] at hSlots
    rcases hSlots with ⟨_, _, _, _, _, _, rfl⟩
    exact not_atTag_here nofun

end

------------------------------------------------------------
-- Openings
------------------------------------------------------------

section

variable {σ : Type} [TokenSource σ]

/-
  Read the start of an object with a tag, up to the name in the
  tag.  There is none in an empty object.
-/
def readOpening
    (tag : String) : Reading σ (Option String) := do
  expectMark .objectOpen
  if ← closes .objectClose then
    pure none
  else
    let name ← readTag tag
    pure (some name)

/- Go on as a node whose type is known. -/
def NodeType.goOn
    (t : NodeType)
    (fields : NodeType → Reading σ Tree) :
    Option String → Reading σ Tree
  | none =>
      Reading.fail (.emptyObject t.name)
  | some name =>
      if name = t.name then
        fields t
      else
        Reading.fail (.wrongVariant t.name name)

/- Go on as a node of a sum. -/
def NodeSum.goOn
    (sum : NodeSum)
    (fields : NodeType → Reading σ Tree) :
    Option String → Reading σ Tree
  | none =>
      Reading.fail (.emptyObject sum.name)
  | some name =>
      match sum.variant? name with
      | none => Reading.fail (.unknownVariant sum.name name)
      | some t => fields t

theorem readNode_eq
    {t : NodeType}
    {tag : String}
    (hTag : t.category.tag? = some tag)
    (d : Shape → Reading σ Tree)
    (parts : Nat) :
    readNode t d parts =
      readOpening tag >>= t.goOn fun u => readFields u d parts := by
  unfold readNode readOpening
  simp only [hTag, bind_assoc]
  apply bind_congr
  intro _
  apply bind_congr
  intro empty
  cases empty with
  | true => rfl
  | false =>
      simp only [Bool.false_eq_true, if_false, expectVariant,
        bind_assoc, pure_bind]
      apply bind_congr
      intro name
      simp only [NodeType.goOn]
      split
      · rfl
      · rfl

theorem readSum_eq
    (sum : NodeSum)
    (d : Shape → Reading σ Tree)
    (parts : Nat) :
    readSum sum d parts =
      readOpening sum.tag >>=
        sum.goOn fun u => readFields u d parts := by
  unfold readSum readOpening
  simp only [bind_assoc]
  apply bind_congr
  intro _
  apply bind_congr
  intro empty
  cases empty with
  | true => rfl
  | false =>
      simp only [Bool.false_eq_true, if_false, bind_assoc,
        pure_bind]
      rfl

/- The fields of a node, decoded where so much is left. -/
def decodeFields
    (n : Nat)
    (t : NodeType) : Reading σ Tree :=
  readFields t (decodeWithin (n + 1) n) (n + 1)

/- Both decoders read the opening and go on. -/
theorem decode_node_eq
    {t : NodeType}
    {tag : String}
    (hTag : t.category.tag? = some tag)
    (s : σ) :
    decode (.node t) s =
      (readOpening tag >>=
        t.goOn (decodeFields (TokenSource.bound s))) s := by
  change readNode t _ _ s = _
  rw [readNode_eq hTag]
  rfl

theorem decode_sum_eq
    (sum : NodeSum)
    (s : σ) :
    decode (.sum sum) s =
      (readOpening sum.tag >>=
        sum.goOn (decodeFields (TokenSource.bound s))) s := by
  change readSum sum _ _ s = _
  rw [readSum_eq]
  rfl

/- The fields of a node make a node of its type. -/
theorem decodeFields_ok
    {n : Nat}
    {t : NodeType}
    {s s' : σ}
    {v : Tree}
    (h : decodeFields n t s = (.ok v, s')) :
    ∃ slots, v = .node t slots := by
  rcases Action.bind_eq_ok_iff.mp h with ⟨members, s₁, _, hNode⟩
  have hSlots : t.ofMembers members = .ok v :=
    congrArg Prod.fst hNode
  rcases Action.except_map_eq_ok_iff.mp hSlots with ⟨slots, _, rfl⟩
  exact ⟨slots, rfl⟩

end

section

variable {s s' : Stream μ}
variable {tag : String}

/- An opening with a name is three tokens. -/
theorem readOpening_some_iff
    {name : String} :
    readOpening tag s = (.ok (some name), s') ↔
      s.Delivers
        [.objectOpen, .key tag, .literal ⟨.string, name⟩] s' := by
  constructor
  · intro h
    rcases Action.bind_eq_ok_iff.mp h with ⟨_, s₁, hOpen, h⟩
    rcases Action.bind_eq_ok_iff.mp h with ⟨closed, s₂, hClose, h⟩
    rcases closes_ok hClose with
      ⟨rfl, _⟩ | ⟨rfl, t, s₃, hNext, rfl⟩
    · cases h
    · rcases Action.bind_eq_ok_iff.mp h with ⟨_, s₄, hTag, hName⟩
      cases hName
      rcases readTag_ok hTag with ⟨s₅, hKey, hValue⟩
      rw [Stream.next_hold_of_next t hNext] at hKey
      cases hKey
      exact .cons (expectMark_ok hOpen)
        (.cons hNext (.cons hValue (.nil _)))
  · intro h
    rcases Stream.Delivers.cons_iff.mp h with ⟨s₁, hOpen, h⟩
    rcases Stream.Delivers.cons_iff.mp h with ⟨s₂, hKey, h⟩
    have hString := Stream.Delivers.singleton_iff.mp h
    have hTag :
        readTag tag (s₂.hold (.key tag)) = (.ok name, s') :=
      readTag_tag (Stream.next_hold_of_next _ hKey)
        (nextValue_starts hString rfl)
    have hClose :
        closes .objectClose s₁ = (.ok false, s₂.hold (.key tag)) :=
      closes_ne hKey nofun
    unfold readOpening
    rw [Action.bind_ok (expectMark_eq hOpen), Action.bind_ok hClose]
    exact Action.bind_ok hTag

theorem readOpening_not_atTag
    {e : DecodeError}
    (hInput : s.FailsOnInput)
    (h : readOpening tag s = (.error e, s')) :
    ¬ e.AtTag := by
  rcases Action.bind_eq_error_iff.mp h with
    hOpen | ⟨_, s₁, hOpen, h⟩
  · exact expectMark_not_atTag hInput hOpen
  · have hInput₁ := hInput.next (expectMark_ok hOpen)
    rcases Action.bind_eq_error_iff.mp h with
      hClose | ⟨closed, s₂, hClose, h⟩
    · exact closes_not_atTag hInput₁ hClose
    · rcases closes_ok hClose with
        ⟨rfl, _⟩ | ⟨rfl, t, s₃, hNext, rfl⟩
      · cases h
      · rcases Action.bind_eq_error_iff.mp h with
          hTag | ⟨_, _, _, hName⟩
        · exact readTag_not_atTag (hInput₁.hold hNext) hTag
        · cases hName

end

------------------------------------------------------------
-- Both Decoders
------------------------------------------------------------

/-
  How a node is decoded alone and as one of a sum.  Both fail in
  the opening, or find an empty object, or read the same fields,
  or the tag names another type.
-/
inductive Openings
    (t : NodeType)
    (sum : NodeSum)
    (s : Stream μ) :
    Except DecodeError Tree × Stream μ →
    Except DecodeError Tree × Stream μ → Prop where
  | fails
      {e : DecodeError}
      {s₁ : Stream μ}
      (hOpening : readOpening sum.tag s = (.error e, s₁)) :
      Openings t sum s (.error e, s₁) (.error e, s₁)
  | empty
      {s₁ : Stream μ}
      (hOpening : readOpening sum.tag s = (.ok none, s₁)) :
      Openings t sum s
        (.error (.here (.emptyObject t.name)), s₁)
        (.error (.here (.emptyObject sum.name)), s₁)
  | same
      {s₁ : Stream μ}
      (hOpening :
        readOpening sum.tag s = (.ok (some t.name), s₁)) :
      Openings t sum s (decodeFields s.bound t s₁)
        (decodeFields s.bound t s₁)
  | other
      {name : String}
      {s₁ : Stream μ}
      {out : Except DecodeError Tree × Stream μ}
      (hOpening : readOpening sum.tag s = (.ok (some name), s₁))
      (hName : name ≠ t.name)
      (hOther : ∀ slots s', out ≠ (.ok (.node t slots), s')) :
      Openings t sum s
        (.error (.here (.wrongVariant t.name name)), s₁) out

section

variable {t : NodeType}
variable {sum : NodeSum}
variable {s : Stream μ}

/- Behind a tag with another name no node of the type comes. -/
theorem goOn_other
    {name : String}
    {n : Nat}
    (hName : name ≠ t.name)
    (s₁ : Stream μ)
    (slots : List (Option Tree))
    (s' : Stream μ) :
    sum.goOn (decodeFields n) (some name) s₁ ≠
      (.ok (.node t slots), s') := by
  intro h
  cases hVariant : sum.variant? name with
  | none =>
      simp only [NodeSum.goOn, hVariant] at h
      cases h
  | some u =>
      simp only [NodeSum.goOn, hVariant] at h
      rcases decodeFields_ok h with ⟨slots', hNode⟩
      cases hNode
      exact hName (NodeSum.variant?_eq_some_iff.mp hVariant).2.symm

/- All that the two decoders of a node of a sum can do. -/
theorem decode_openings
    (hSum : t.category = sum.category)
    (s : Stream μ) :
    Openings t sum s (decode (.node t) s) (decode (.sum sum) s) := by
  have hVariant : sum.variant? t.name = some t :=
    NodeSum.variant?_eq_some_iff.mpr ⟨hSum, rfl⟩
  rw [decode_node_eq (NodeSum.tag?_of_category hSum), decode_sum_eq]
  cases hOpening : readOpening sum.tag s with
  | mk result s₁ =>
      cases result with
      | error e =>
          rw [Action.bind_error hOpening,
            Action.bind_error hOpening]
          exact .fails hOpening
      | ok opening =>
          rw [Action.bind_ok hOpening, Action.bind_ok hOpening]
          cases opening with
          | none => exact .empty hOpening
          | some name =>
              by_cases hName : name = t.name
              · subst hName
                simp only [NodeType.goOn, NodeSum.goOn, hVariant,
                  if_true]
                exact .same hOpening
              · simp only [NodeType.goOn, if_neg hName]
                exact .other hOpening hName
                  (goOn_other hName s₁)

end

/-
  A node of a sum is decoded alike alone and as one of the sum.

  A node of the type comes out of both decoders or of neither,
  with the same tokens read.  All errors are the same, but for
  an empty object and for a tag that names another type.  The
  latter is found exactly where a tag with another name stands.
-/
structure DecodersAgree
    (t : NodeType)
    (sum : NodeSum)
    (s : Stream μ)
    (run : Shape → Reading (Stream μ) Tree) : Prop where
  ok_iff :
    ∀ {slots s'},
      run (.sum sum) s = (.ok (.node t slots), s') ↔
        run (.node t) s = (.ok (.node t slots), s')
  node :
    ∀ {v s'}, run (.node t) s = (.ok v, s') →
      ∃ slots, v = .node t slots
  error :
    ∀ {e s'}, run (.node t) s = (.error e, s') →
      (∀ name, e ≠ .here (.emptyObject name)) →
      (∀ expected found,
        e ≠ .here (.wrongVariant expected found)) →
      run (.sum sum) s = (.error e, s')
  wrongVariant_iff :
    ∀ {expected found s'},
      run (.node t) s =
          (.error (.here (.wrongVariant expected found)), s') ↔
        expected = t.name ∧ found ≠ t.name ∧
          s.Delivers
            [.objectOpen, .key sum.tag,
              .literal ⟨.string, found⟩] s'

section

variable [LawfulMachine μ]
variable {t : NodeType}
variable {sum : NodeSum}
variable {s : Stream μ}

/- Fields behind a tag: less is left than at the opening. -/
theorem decodeFields_not_atTag
    {s₁ s' : Stream μ}
    {e : DecodeError}
    (hInput : s.FailsOnInput)
    (hOpening : readOpening sum.tag s = (.ok (some t.name), s₁))
    (h : decodeFields s.bound t s₁ = (.error e, s')) :
    ¬ e.AtTag := by
  have hDelivers := readOpening_some_iff.mp hOpening
  have hLeft := hDelivers.length_le_left (by simp)
  have hBound := s.left_le_bound
  have hInput₁ : s₁.FailsOnInput := by
    intro ts s₂ e s₃ hMore
    exact hInput (Stream.Delivers.append_iff.mpr
      ⟨s₁, hDelivers, hMore⟩)
  refine readFields_not_atTag (b := s.bound) ?_ hInput₁ ?_ h
  · exact (Simulation.onInput μ).decodeWithin _ _
      (Nat.le_succ _) (Nat.le_succ _)
  · simp only [List.length_cons, List.length_nil] at hLeft
    omega

theorem decode_agree
    (hSum : t.category = sum.category)
    (hInput : s.FailsOnInput) :
    DecodersAgree t sum s decode := by
  have hOpenings := decode_openings hSum s
  generalize hNode : decode (.node t) s = out at hOpenings
  generalize hOne : decode (.sum sum) s = out' at hOpenings
  constructor
  · intro slots s'
    rw [hNode, hOne]
    cases hOpenings with
    | fails => exact Iff.rfl
    | empty => exact ⟨nofun, nofun⟩
    | same => exact Iff.rfl
    | other _ _ hOther =>
        exact ⟨fun h => absurd h (hOther slots s'), nofun⟩
  · intro v s' h
    rw [hNode] at h
    cases hOpenings with
    | fails => cases h
    | empty => cases h
    | same => exact decodeFields_ok h
    | other => cases h
  · intro e s' h hEmpty hVariant
    rw [hNode] at h
    rw [hOne]
    cases hOpenings with
    | fails => exact h
    | empty =>
        cases h
        exact absurd rfl (hEmpty _)
    | same => exact h
    | other =>
        cases h
        exact absurd rfl (hVariant _ _)
  · intro expected found s'
    rw [hNode, ← readOpening_some_iff]
    cases hOpenings with
    | fails hOpening =>
        constructor
        · intro h
          cases h
          exact absurd ⟨_, _, rfl⟩
            (readOpening_not_atTag hInput hOpening)
        · intro hParts
          rw [hOpening] at hParts
          cases hParts.2.2
    | empty hOpening =>
        constructor
        · intro h
          cases h
        · intro hParts
          rw [hOpening] at hParts
          cases hParts.2.2
    | same hOpening =>
        constructor
        · intro h
          exact absurd ⟨_, _, rfl⟩
            (decodeFields_not_atTag hInput hOpening h)
        · intro hParts
          rw [hOpening] at hParts
          cases hParts.2.2
          exact absurd rfl hParts.2.1
    | other hOpening hName =>
        constructor
        · intro h
          cases h
          exact ⟨rfl, hName, hOpening⟩
        · intro hParts
          rcases hParts with ⟨rfl, _, hSame⟩
          rw [hOpening] at hSame
          cases hSame
          rfl

omit [LawfulMachine μ] in
/- A document is the value that stands before its end. -/
theorem eq_of_finished
    {s' : Stream μ}
    {v v' : Tree}
    (h :
      (do
        finish
        pure v : Reading (Stream μ) Tree) s = (.ok v', s')) :
    v = v' := by
  rcases Action.bind_eq_ok_iff.mp h with ⟨_, _, _, hPure⟩
  cases hPure
  rfl

/- What comes behind a value does not change the agreement. -/
theorem DecodersAgree.document
    (h : DecodersAgree t sum s decode)
    (hInput : s.FailsOnInput) :
    DecodersAgree t sum s decodeDocument where
  ok_iff := by
    intro slots s'
    constructor
    · intro hDecode
      rcases Action.bind_eq_ok_iff.mp hDecode with
        ⟨v, s₁, hValue, hRest⟩
      cases eq_of_finished hRest
      exact Action.bind_eq_ok_iff.mpr
        ⟨_, s₁, h.ok_iff.mp hValue, hRest⟩
    · intro hDecode
      rcases Action.bind_eq_ok_iff.mp hDecode with
        ⟨v, s₁, hValue, hRest⟩
      cases eq_of_finished hRest
      exact Action.bind_eq_ok_iff.mpr
        ⟨_, s₁, h.ok_iff.mpr hValue, hRest⟩
  node := by
    intro v s' hDecode
    rcases Action.bind_eq_ok_iff.mp hDecode with
      ⟨v', s₁, hValue, hRest⟩
    cases eq_of_finished hRest
    exact h.node hValue
  error := by
    intro e s' hDecode hEmpty hVariant
    rcases Action.bind_eq_error_iff.mp hDecode with
      hValue | ⟨v, s₁, hValue, hRest⟩
    · exact Action.bind_error (h.error hValue hEmpty hVariant)
    · rcases h.node hValue with ⟨slots, rfl⟩
      exact Action.bind_eq_error_iff.mpr
        (.inr ⟨_, s₁, h.ok_iff.mpr hValue, hRest⟩)
  wrongVariant_iff := by
    intro expected found s'
    constructor
    · intro hDecode
      rcases Action.bind_eq_error_iff.mp hDecode with
        hValue | ⟨v, s₁, hValue, hRest⟩
      · exact h.wrongVariant_iff.mp hValue
      · have hOutcome :=
          (Simulation.onInput μ).decode (.node t) ⟨rfl, hInput⟩
        rw [hValue] at hOutcome
        cases hOutcome with
        | ok _ hStates _ _ =>
            rcases Action.bind_eq_error_iff.mp hRest with
              hFinish | ⟨_, _, _, hPure⟩
            · exact absurd ⟨_, _, rfl⟩
                (finish_not_atTag hStates.2 hFinish)
            · cases hPure
    · intro hParts
      exact Action.bind_error (h.wrongVariant_iff.mpr hParts)

/- Both ways to decode agree where a session has led to. -/
theorem agree_after_session
    {s₀ : Stream μ}
    {events : List Event}
    (hSum : t.category = sum.category)
    (hInput : s₀.FailsOnInput)
    (hSession : Session s₀ events s) :
    DecodersAgree t sum s decode ∧
      DecodersAgree t sum s decodeDocument := by
  have hHere := hInput.session hSession
  have hAgree := decode_agree hSum hHere
  exact ⟨hAgree, hAgree.document hHere⟩

end

/-
  A node is decoded alike alone and as one of its sum, from every
  text, failing or not, and from every document, wherever calls
  of the source have led to, and at every limit of nesting.
-/
theorem node_decoder_agrees_with_sum
    (t : NodeType)
    (sum : NodeSum)
    (h : t.category = sum.category) :
    (∀ bytes fault limit events s,
      Session (Scanner.stream bytes fault limit) events s →
      DecodersAgree t sum s decode ∧
        DecodersAgree t sum s decodeDocument) ∧
    ∀ j limit events s,
      Session (ValueWalk.stream j limit) events s →
      DecodersAgree t sum s decode ∧
        DecodersAgree t sum s decodeDocument := by
  constructor
  · intro bytes fault limit events s hSession
    exact agree_after_session h
      (Scanner.stream_failsOnInput bytes fault limit) hSession
  · intro j limit events s hSession
    exact agree_after_session h
      (ValueWalk.stream_failsOnInput j limit) hSession

/- A name as a document. -/
def namedX : Json :=
  .object
    [("expression_name", .string "Ident"), ("name", .string "x")]

/- A number as a document. -/
def numberOne : Json :=
  .object
    [("expression_name", .string "IntLit"), ("value", .int 1)]

/-
  A name is decoded alike, and a number in its place is told
  from its tag.
-/
theorem ident_decoder_agrees_with_expr :
    NodeType.ident.category = NodeSum.expr.category ∧
    (∃ s',
      decodeDocument (.node .ident) (ValueWalk.stream namedX 1) =
          (.ok (.node .ident [some (.text "x")]), s') ∧
        decodeDocument (.sum .expr) (ValueWalk.stream namedX 1) =
          (.ok (.node .ident [some (.text "x")]), s')) ∧
    ∃ s',
      decode (.node .ident) (ValueWalk.stream numberOne 1) =
        (.error (.here (.wrongVariant "Ident" "IntLit")), s') := by
  have hAgree :=
    (node_decoder_agrees_with_sum .ident .expr rfl).2
  refine ⟨rfl, ⟨_, rfl, ?_⟩, ?_⟩
  · exact (hAgree namedX 1 [] _ (.nil _)).2.ok_iff.mpr rfl
  · have hTag :=
      (hAgree numberOne 1 [] _ (.nil _)).1.wrongVariant_iff.mpr
        ⟨rfl, by decide, .cons rfl (.cons rfl (.cons rfl (.nil _)))⟩
    exact ⟨_, hTag⟩

end TreeWire
