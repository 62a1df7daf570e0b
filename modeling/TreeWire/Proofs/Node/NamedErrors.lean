import TreeWire.Proofs.Action
import TreeWire.Proofs.Node.ErrorTexts
import TreeWire.Proofs.Node.Failures
import TreeWire.Proofs.Source.InputErrors
import TreeWire.Node.Decoder
import TreeWire.Source.TokenList

/-
  The errors that decoding gives, and their texts.

  A machine fails on its input.  Whatever else goes wrong in a
  decoder names node types, sums, tags and keys of the schema, and
  so do the hops on the way out.  That is kept by each step of a
  reading, from any state of a stream that has not failed
  otherwise.  So decoding gives named errors only, and no two of
  them have the same text.

  Key definitions include:
    * `FailsOnInputOnly`
    * `Stream.FailedOnInput`
    * `GivesNamed`
    * `DecodeError.Arises`

  Main statements:
    * `GivesNamed.bind`
    * `givesNamed_decodeWithin`
    * `givesNamed_decodeDocument`
    * `error_texts_unambiguous`
-/

namespace TreeWire

------------------------------------------------------------
-- Names of the Schema
------------------------------------------------------------

theorem isName_of_isTypeName
    {text : String}
    (h : isTypeName text = true) :
    isName text = true :=
  (Bool.and_eq_true_iff.mp h).1

theorem NodeType.isTypeName_name
    (t : NodeType) :
    isTypeName t.name = true := by
  cases t <;> exact isTypeName_ofList rfl

theorem NodeType.isName_key
    {t : NodeType}
    {f : Field}
    (h : f ∈ t.fields) :
    isName f.key = true := by
  have hAll : ∀ f ∈ t.fields, isName f.key = true := by
    cases t <;>
      repeat' first
        | exact List.forall_mem_nil _
        | refine List.forall_mem_cons.mpr ⟨isName_ofList rfl, ?_⟩
  exact hAll f h

theorem NodeType.isName_of_field?
    {t : NodeType}
    {key : String}
    {f : Field}
    (h : t.field? key = some f) :
    isName key = true := by
  have hFound := List.find?_some h
  rw [Bool.and_eq_true, decide_eq_true_eq] at hFound
  rw [← hFound.2]
  exact isName_key (List.mem_of_find?_eq_some h)

theorem NodeSum.isTypeName_name
    (sum : NodeSum) :
    isTypeName sum.name = true := by
  cases sum <;> exact isTypeName_ofList rfl

theorem NodeSum.isName_tag
    (sum : NodeSum) :
    isName sum.tag = true := by
  cases sum <;> exact isName_ofList rfl

theorem Category.isName_of_tag?
    {category : Category}
    {tag : String}
    (h : category.tag? = some tag) :
    isName tag = true := by
  cases category <;> cases h <;> exact isName_ofList rfl

theorem DecodeError.OfInput.named
    {e : DecodeError}
    (h : e.OfInput) :
    e.Named := by
  cases h <;> exact ⟨trivial, List.forall_mem_nil _⟩

theorem DecodeError.named_here
    {cause : Cause}
    (h : cause.Named) :
    (here cause).Named :=
  ⟨h, List.forall_mem_nil _⟩

theorem isPhrase_object : isPhrase "object" = true :=
  isPhrase_ofList rfl

theorem isPhrase_array : isPhrase "array" = true :=
  isPhrase_ofList rfl

theorem Token.named_wrongShape
    {expected : String}
    (token : Token)
    (h : isPhrase expected = true) :
    (token.wrongShape expected).Named :=
  DecodeError.named_here h

------------------------------------------------------------
-- Values of Literals
------------------------------------------------------------

theorem LiteralKind.isPhrase_text
    (kind : LiteralKind) :
    isPhrase kind.text = true := by
  cases kind <;> exact isPhrase_ofList rfl

theorem Token.named_of_literalText
    {kind : LiteralKind}
    {token : Token}
    {e : DecodeError}
    (h : token.literalText kind = .error e) :
    e.Named := by
  rw [literalText_eq_error h]
  exact DecodeError.named_here (LiteralKind.isPhrase_text kind)

theorem ScalarType.named_of_ofToken
    {type : ScalarType}
    {token : Token}
    {e : DecodeError}
    (h : type.ofToken token = .error e) :
    e.Named := by
  rcases ofToken_eq_error h with rfl | ⟨text, rfl | rfl⟩
  · exact DecodeError.named_here (LiteralKind.isPhrase_text _)
  · have hInt : isName "int64" = true := isName_ofList rfl
    exact DecodeError.named_here hInt
  · have hFloat : isName "float64" = true := isName_ofList rfl
    exact DecodeError.named_here hFloat

------------------------------------------------------------
-- Nodes from Members
------------------------------------------------------------

theorem NodeType.named_of_slots
    {t : NodeType}
    {members : List (String × Tree)}
    {fields : List Field}
    {e : DecodeError}
    (hFields : ∀ f ∈ fields, isName f.key = true)
    (h : t.slots members fields = .error e) :
    e.Named := by
  induction fields with
  | nil => cases h
  | cons f fields ih =>
      rw [List.forall_mem_cons] at hFields
      rw [slots, Action.except_bind_eq_error_iff] at h
      rcases h with hSlot | ⟨o, _, hRest⟩
      · unfold slot at hSlot
        split at hSlot
        · cases hSlot
        · split at hSlot
          · cases hSlot
            exact DecodeError.named_here
              ⟨isName_of_isTypeName t.isTypeName_name, hFields.1⟩
          · cases hSlot
          · cases hSlot
      · rcases Action.except_bind_eq_error_iff.mp hRest with
          hLater | ⟨_, _, hPure⟩
        · exact ih hFields.2 hLater
        · cases hPure

theorem NodeType.named_of_ofMembers
    {t : NodeType}
    {members : List (String × Tree)}
    {e : DecodeError}
    (h : t.ofMembers members = .error e) :
    e.Named :=
  named_of_slots (fun _ hMem => isName_key hMem)
    (Action.except_map_eq_error_iff.mp h)

------------------------------------------------------------
-- Streams
------------------------------------------------------------

/- A machine of which each failure is one of the input. -/
class FailsOnInputOnly
    (μ : Type)
    [TokenMachine μ] : Prop where
  ofInput :
    ∀ {m m' : μ} {e : DecodeError},
      TokenMachine.step m = (.error e, m') → e.OfInput

instance : FailsOnInputOnly Scanner :=
  ⟨fun h => (Scanner.token_error h).1⟩

instance : FailsOnInputOnly ValueWalk :=
  ⟨fun h => ValueWalk.step_error h⟩

instance : FailsOnInputOnly TokenList := by
  refine ⟨fun {m m' e} h => ?_⟩
  change TokenList.step m = _ at h
  unfold TokenList.step at h
  split at h <;> cases h

/- A stream that has not failed, or has failed on its input. -/
def Stream.FailedOnInput
    {μ : Type}
    (s : Stream μ) : Prop :=
  ∀ e ∈ s.failed, e.OfInput

variable {μ : Type} [TokenMachine μ]
variable {α β : Type}

/-
  A reading that gives named errors, and leaves a stream that has
  failed on its input, if at all.
-/
def GivesNamed
    (action : Reading (Stream μ) α) : Prop :=
  ∀ s : Stream μ, s.FailedOnInput →
    (action s).2.FailedOnInput ∧
      ∀ e, (action s).1 = .error e → e.Named

------------------------------------------------------------
-- Readings
------------------------------------------------------------

omit [TokenMachine μ] in
theorem givesNamed_pure
    (a : α) :
    GivesNamed (pure a : Reading (Stream μ) α) :=
  fun _ hStream => ⟨hStream, fun _ hEq => by cases hEq⟩

omit [TokenMachine μ] in
theorem GivesNamed.bind
    {action : Reading (Stream μ) α}
    {next : α → Reading (Stream μ) β}
    (hAction : GivesNamed action)
    (hNext : ∀ a, GivesNamed (next a)) :
    GivesNamed (action >>= next) := by
  intro s hStream
  have hFirst := hAction s hStream
  rw [Action.bind_apply]
  rcases hResult : action s with ⟨e | a, s'⟩
  · rw [hResult] at hFirst
    refine ⟨hFirst.1, fun e' hEq => hFirst.2 e' ?_⟩
    cases hEq
    rfl
  · rw [hResult] at hFirst
    exact hNext a s' hFirst.1

omit [TokenMachine μ] in
theorem givesNamed_ofExcept
    {result : Except DecodeError α}
    (h : ∀ e, result = .error e → e.Named) :
    GivesNamed (Reading.ofExcept result : Reading (Stream μ) α) :=
  fun _ hStream => ⟨hStream, h⟩

omit [TokenMachine μ] in
theorem givesNamed_throw
    {e : DecodeError}
    (h : e.Named) :
    GivesNamed (throw e : Reading (Stream μ) α) := by
  refine fun _ hStream => ⟨hStream, fun e' hEq => ?_⟩
  cases hEq
  exact h

omit [TokenMachine μ] in
theorem givesNamed_fail
    {cause : Cause}
    (h : cause.Named) :
    GivesNamed (Reading.fail cause : Reading (Stream μ) α) :=
  givesNamed_throw (DecodeError.named_here h)

/- Errors may be changed in a way that keeps them named. -/
omit [TokenMachine μ] in
theorem GivesNamed.mapError
    {f : DecodeError → DecodeError}
    {action : Reading (Stream μ) α}
    (h : GivesNamed action)
    (hKeeps : ∀ e : DecodeError, e.Named → (f e).Named) :
    GivesNamed (Reading.mapError f action) := by
  intro s hStream
  have hAction := h s hStream
  unfold Reading.mapError
  rcases hResult : action s with ⟨e | a, s'⟩
  · rw [hResult] at hAction
    refine ⟨hAction.1, fun e' hEq => ?_⟩
    cases hEq
    exact hKeeps e (hAction.2 e rfl)
  · rw [hResult] at hAction
    exact ⟨hAction.1, fun _ hEq => by cases hEq⟩

/- A hop into a field of the schema keeps an error named. -/
theorem DecodeError.Named.within
    {e : DecodeError}
    {node key : String}
    (h : e.Named)
    (hNode : isName node = true)
    (hKey : isName key = true) :
    (e.within node key).Named :=
  ⟨h.cause, List.forall_mem_cons.mpr ⟨⟨hNode, hKey⟩, h.path⟩⟩

theorem DecodeError.Named.atIndex
    {e : DecodeError}
    (i : Nat)
    (h : e.Named) :
    (e.atIndex i).Named :=
  ⟨h.cause, List.forall_mem_cons.mpr ⟨trivial, h.path⟩⟩

section

variable [FailsOnInputOnly μ]

theorem givesNamed_nextToken :
    GivesNamed (nextToken : Reading (Stream μ) Token) := by
  intro s hStream
  change (Stream.next s).2.FailedOnInput ∧
    ∀ e, (Stream.next s).1 = .error e → e.Named
  rcases hNext : Stream.next s with ⟨r, s'⟩
  cases Stream.advances_of_next hNext with
  | held => exact ⟨hStream, fun _ hEq => by cases hEq⟩
  | token => exact ⟨hStream, fun _ hEq => by cases hEq⟩
  | @stopped e _ hFailed =>
      refine ⟨hStream, fun e' hEq => ?_⟩
      cases hEq
      exact (hStream e hFailed).named
  | failure _ _ hStep =>
      have hInput := FailsOnInputOnly.ofInput hStep
      refine ⟨fun e' hEq => ?_, fun e' hEq => ?_⟩
      · cases hEq
        exact hInput
      · cases hEq
        exact hInput.named

omit [FailsOnInputOnly μ] in
theorem givesNamed_holdToken
    (token : Token) :
    GivesNamed (holdToken token : Reading (Stream μ) Unit) :=
  fun _ hStream => ⟨hStream, fun _ hEq => by cases hEq⟩

theorem givesNamed_nextKey :
    GivesNamed (nextKey : Reading (Stream μ) (Option String)) := by
  refine givesNamed_nextToken.bind fun token => ?_
  split
  · exact givesNamed_pure _
  · exact givesNamed_pure _
  · exact givesNamed_pure _
  · exact givesNamed_throw
      (Token.named_wrongShape token (isPhrase_ofList rfl))

theorem givesNamed_nextValue :
    GivesNamed (nextValue : Reading (Stream μ) Token) := by
  refine givesNamed_nextToken.bind fun token => ?_
  split
  · exact givesNamed_pure _
  · exact givesNamed_throw
      (Token.named_wrongShape token (isPhrase_ofList rfl))

------------------------------------------------------------
-- Marks and Tags
------------------------------------------------------------

theorem givesNamed_expectMark
    (mark : Token)
    (h : isPhrase mark.kind.text = true) :
    GivesNamed (expectMark mark : Reading (Stream μ) Unit) := by
  refine givesNamed_nextToken.bind fun token => ?_
  split
  · exact givesNamed_pure _
  · exact givesNamed_throw (Token.named_wrongShape token h)

theorem givesNamed_closes
    (mark : Token) :
    GivesNamed (closes mark : Reading (Stream μ) Bool) := by
  refine givesNamed_nextToken.bind fun token => ?_
  split
  · exact givesNamed_pure _
  · exact (givesNamed_holdToken token).bind fun _ => givesNamed_pure _

theorem givesNamed_readTag
    {tag : String}
    (h : isName tag = true) :
    GivesNamed (readTag tag : Reading (Stream μ) String) := by
  refine givesNamed_nextToken.bind fun token => ?_
  split
  · split
    · exact givesNamed_nextValue.bind fun value =>
        givesNamed_ofExcept fun _ hError =>
          Token.named_of_literalText hError
    · exact givesNamed_fail h
  · exact givesNamed_fail h

theorem givesNamed_expectVariant
    {tag : String}
    (t : NodeType)
    (h : isName tag = true) :
    GivesNamed (expectVariant tag t : Reading (Stream μ) Unit) := by
  refine (givesNamed_readTag h).bind fun found => ?_
  split
  · exact givesNamed_pure _
  · exact givesNamed_fail (isName_of_isTypeName t.isTypeName_name)

omit [TokenMachine μ] [FailsOnInputOnly μ] in
theorem givesNamed_exhausted :
    GivesNamed (exhausted : Reading (Stream μ) α) :=
  givesNamed_fail trivial

------------------------------------------------------------
-- Members and Elements
------------------------------------------------------------

variable {decodeValue : Shape → Reading (Stream μ) Tree}

/- The value of a member gets the hop into its field. -/
theorem givesNamed_readMember
    (t : NodeType)
    (key : String)
    (hValue : ∀ shape, GivesNamed (decodeValue shape)) :
    GivesNamed (readMember t decodeValue key) := by
  have hNode := isName_of_isTypeName t.isTypeName_name
  have hUnexpected :
      GivesNamed (Reading.fail (.unexpectedKey key t.name) :
        Reading (Stream μ) Tree) :=
    givesNamed_fail hNode
  unfold readMember
  split
  · refine givesNamed_nextValue.bind fun token => ?_
    cases hField : t.field? key with
    | none => exact hUnexpected
    | some f =>
        have hKey := NodeType.isName_of_field? hField
        refine GivesNamed.mapError ?_ fun e he => he.within hNode hKey
        split
        · exact givesNamed_ofExcept fun _ hError =>
            ScalarType.named_of_ofToken hError
        · exact (givesNamed_holdToken token).bind fun _ => hValue _
  · cases hField : t.field? key with
    | none => exact hUnexpected
    | some f =>
        have hKey := NodeType.isName_of_field? hField
        exact (hValue f.shape).mapError fun e he =>
          he.within hNode hKey

theorem givesNamed_readMembers
    (t : NodeType)
    (parts : Nat)
    (members : List (String × Tree))
    (hValue : ∀ shape, GivesNamed (decodeValue shape)) :
    GivesNamed (readMembers t decodeValue parts members) := by
  induction parts generalizing members with
  | zero => exact givesNamed_exhausted
  | succ parts ih =>
      refine givesNamed_nextKey.bind fun name => ?_
      cases name with
      | none => exact givesNamed_pure _
      | some key =>
          exact (givesNamed_readMember t key hValue).bind fun value =>
            ih _

theorem givesNamed_readFields
    (t : NodeType)
    (parts : Nat)
    (hValue : ∀ shape, GivesNamed (decodeValue shape)) :
    GivesNamed (readFields t decodeValue parts) := by
  exact (givesNamed_readMembers t parts [] hValue).bind fun members =>
    givesNamed_ofExcept fun _ hError =>
      NodeType.named_of_ofMembers hError

theorem givesNamed_readItems
    {decodeItem : Reading (Stream μ) Tree}
    (parts : Nat)
    (items : Array Tree)
    (hItem : GivesNamed decodeItem) :
    GivesNamed (readItems decodeItem parts items) := by
  induction parts generalizing items with
  | zero => exact givesNamed_exhausted
  | succ parts ih =>
      refine (hItem.mapError fun e he => he.atIndex items.size).bind
        fun item => ?_
      refine (givesNamed_closes .arrayClose).bind fun closed => ?_
      split
      · exact givesNamed_pure _
      · exact ih _

------------------------------------------------------------
-- Values
------------------------------------------------------------

theorem givesNamed_readNode
    (t : NodeType)
    (parts : Nat)
    (hValue : ∀ shape, GivesNamed (decodeValue shape)) :
    GivesNamed (readNode t decodeValue parts) := by
  refine (givesNamed_expectMark .objectOpen isPhrase_object).bind
    fun _ => ?_
  refine (givesNamed_closes .objectClose).bind fun empty => ?_
  cases hTag : t.category.tag? with
  | none =>
      dsimp only
      split
      · exact givesNamed_pure _
      · exact givesNamed_readFields t parts hValue
  | some tag =>
      dsimp only
      split
      · exact givesNamed_fail t.isTypeName_name
      · exact (givesNamed_expectVariant t
          (Category.isName_of_tag? hTag)).bind fun _ =>
            givesNamed_readFields t parts hValue

theorem givesNamed_readSum
    (sum : NodeSum)
    (parts : Nat)
    (hValue : ∀ shape, GivesNamed (decodeValue shape)) :
    GivesNamed (readSum sum decodeValue parts) := by
  refine (givesNamed_expectMark .objectOpen isPhrase_object).bind
    fun _ => ?_
  refine (givesNamed_closes .objectClose).bind fun empty => ?_
  split
  · exact givesNamed_fail sum.isTypeName_name
  · refine (givesNamed_readTag sum.isName_tag).bind fun name => ?_
    split
    · exact givesNamed_fail (isName_of_isTypeName sum.isTypeName_name)
    · exact givesNamed_readFields _ parts hValue

theorem givesNamed_readList
    {decodeItem : Reading (Stream μ) Tree}
    (parts : Nat)
    (hItem : GivesNamed decodeItem) :
    GivesNamed (readList decodeItem parts) := by
  refine (givesNamed_expectMark .arrayOpen isPhrase_array).bind
    fun _ => ?_
  refine (givesNamed_closes .arrayClose).bind fun empty => ?_
  split
  · exact givesNamed_pure _
  · exact (givesNamed_readItems parts #[] hItem).bind fun items =>
      givesNamed_pure _

/-
  Decoding gives named errors, whatever the shape.  The induction
  is on the levels, which are fewer for the parts of a value.
-/
theorem givesNamed_decodeWithin
    (parts levels : Nat)
    (shape : Shape) :
    GivesNamed (decodeWithin parts levels shape :
      Reading (Stream μ) Tree) := by
  induction levels generalizing shape with
  | zero =>
      cases shape with
      | scalar type =>
          rw [decodeWithin]
          exact givesNamed_nextValue.bind fun token =>
            givesNamed_ofExcept fun _ hError =>
              ScalarType.named_of_ofToken hError
      | node t => exact givesNamed_exhausted
      | sum sum => exact givesNamed_exhausted
      | list elem => exact givesNamed_exhausted
  | succ levels ih =>
      cases shape with
      | scalar type =>
          rw [decodeWithin]
          exact givesNamed_nextValue.bind fun token =>
            givesNamed_ofExcept fun _ hError =>
              ScalarType.named_of_ofToken hError
      | node t => exact givesNamed_readNode t parts ih
      | sum sum => exact givesNamed_readSum sum parts ih
      | list elem => exact givesNamed_readList parts (ih elem)

theorem givesNamed_finish :
    GivesNamed (finish : Reading (Stream μ) Unit) := by
  refine givesNamed_nextToken.bind fun token => ?_
  split
  · exact givesNamed_pure _
  · exact givesNamed_throw
      (Token.named_wrongShape token (isPhrase_ofList rfl))

theorem givesNamed_decodeDocument
    (shape : Shape) :
    GivesNamed (decodeDocument shape : Reading (Stream μ) Tree) := by
  have hDecode :
      GivesNamed (decode shape : Reading (Stream μ) Tree) :=
    fun s => givesNamed_decodeWithin _ _ shape s
  refine hDecode.bind fun tree => ?_
  exact givesNamed_finish.bind fun _ => givesNamed_pure _

/- A source that has not failed decodes with named errors. -/
theorem named_of_decodeDocument
    {shape : Shape}
    {machine : μ}
    {e : DecodeError}
    (h : (decodeDocument shape (Stream.start machine)).1 = .error e) :
    e.Named :=
  (givesNamed_decodeDocument shape (Stream.start machine) nofun).2 e h

end

------------------------------------------------------------
-- Errors That Arise
------------------------------------------------------------

/-
  An error that decoding gives for some input as some type: a text
  which may break off with a message of its reader, a parsed
  document, or a list of tokens.
-/
inductive DecodeError.Arises : DecodeError → Prop where
  | text
      {e : DecodeError}
      (shape : Shape)
      (bytes : List UInt8)
      (fault : Option String)
      (limit : Nat)
      (h :
        (decodeDocument shape (Scanner.stream bytes fault limit)).1 =
          .error e) :
      Arises e
  | value
      {e : DecodeError}
      (shape : Shape)
      (j : Json)
      (limit : Nat)
      (h :
        (decodeDocument shape (ValueWalk.stream j limit)).1 =
          .error e) :
      Arises e
  | tokens
      {e : DecodeError}
      (shape : Shape)
      (ts : List Token)
      (h :
        (decodeDocument shape (TokenList.stream ts)).1 = .error e) :
      Arises e

theorem DecodeError.Arises.named
    {e : DecodeError}
    (h : e.Arises) :
    e.Named := by
  cases h with
  | text shape bytes fault limit h => exact named_of_decodeDocument h
  | value shape j limit h => exact named_of_decodeDocument h
  | tokens shape ts h => exact named_of_decodeDocument h

/-
  The text of an error that decoding gives tells its path and its
  cause, whatever stands in the documents and whatever the readers
  say.
-/
theorem error_texts_unambiguous
    {e d : DecodeError}
    (he : e.Arises)
    (hd : d.Arises)
    (h : e.message = d.message) :
    e.path = d.path ∧ e.cause = d.cause := by
  have hSame := he.named.message_inj hd.named h
  rw [hSame]
  exact ⟨rfl, rfl⟩

/- A project with a package of which a key looks like a text. -/
def quotingProject : Json :=
  .object
    [("packages",
      .array [.object [("name\" in Package", .literal ⟨.null, "null"⟩)]])]

/- Its error: a key that no package has. -/
def quotingError : DecodeError :=
  ⟨.unexpectedKey "name\" in Package" "Package",
    [.field "Project" "packages", .index 0]⟩

/- The project gives its error, parsed or as a list of tokens. -/
theorem quotingError_unambiguous :
    quotingError.message =
      "at Project.packages[0] → unexpected key "
        ++ "\"name\" in Package\" in Package" ∧
    ∃ e d : DecodeError,
      (decodeDocument (.node .project)
        (ValueWalk.stream quotingProject 3)).1 = .error e ∧
      (decodeDocument (.node .project)
        (TokenList.stream quotingProject.tokens)).1 = .error d ∧
      e.message = d.message ∧ e.path = d.path ∧ e.cause = d.cause := by
  refine ⟨rfl, quotingError, quotingError, rfl, rfl, rfl, ?_⟩
  exact error_texts_unambiguous
    (.value (.node .project) quotingProject 3 rfl)
    (.tokens (.node .project) quotingProject.tokens rfl) rfl

end TreeWire
