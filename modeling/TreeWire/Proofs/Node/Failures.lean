import TreeWire.Proofs.Json.Printing
import TreeWire.Proofs.Node.Denotation
import TreeWire.Proofs.Number.Range

/-
  Where decoding fails, and why.

  `Reaches shape j path target s` says that the hops of `path`
  lead from the document `j`, decoded at `shape`, to its part `s`,
  decoded at `target`, and that all that is read before the part
  conforms.  `Justified target s cause` says that `cause` is what
  is wrong first with `s` itself.  Where a path reaches a part at
  which a cause is justified, decoding fails with that path and
  that cause.

  Key definitions include:
    * `NodeMembers`
    * `Reaches`
    * `Justified`
    * `Located`

  Main statements:
    * `Json.decodeItems_eq_error_iff`
    * `Json.decodeMembers_eq_error_iff`
    * `Json.decodeAs_of_justified`
    * `Json.decodeAs_of_reaches`
-/

namespace TreeWire

open Grammar

------------------------------------------------------------
-- Paths
------------------------------------------------------------

/-
  An object of a shape is a node of a type, and these are its
  members after the tag.
-/
inductive NodeMembers :
    Shape →
    Json →
    NodeType →
    List (String × Json) → Prop where
  | plain
      {t : NodeType}
      {members : List (String × Json)}
      (hOther : t.category = .other)
      (hMembers : members ≠ []) :
      NodeMembers (.node t) (.object members) t members
  | tagged
      {t : NodeType}
      {tag : String}
      {members : List (String × Json)}
      (hTag : t.category.tag? = some tag) :
      NodeMembers (.node t)
        (.object ((tag, .string t.name) :: members)) t members
  | variant
      {t : NodeType}
      {sum : NodeSum}
      {members : List (String × Json)}
      (hSum : t.category = sum.category) :
      NodeMembers (.sum sum)
        (.object ((sum.tag, .string t.name) :: members)) t members

/-
  A path leads from a document to a part of it, and what comes
  before the part conforms.
-/
inductive Reaches :
    Shape →
    Json →
    List Hop →
    Shape →
    Json → Prop where
  | here
      {shape : Shape}
      {j : Json} :
      Reaches shape j [] shape j
  | field
      {shape target : Shape}
      {j value s : Json}
      {t : NodeType}
      {f : Field}
      {before after : List (String × Json)}
      {values : List (String × Tree)}
      {path : List Hop}
      (hNode :
        NodeMembers shape j t (before ++ (f.key, value) :: after))
      (hBefore : MembersDenote t before values)
      (hField : f ∈ t.fields)
      (hCarried : f.carried = true)
      (hValue : Reaches f.shape value path target s) :
      Reaches shape j (.field t.name f.key :: path) target s
  | index
      {elem target : Shape}
      {item s : Json}
      {before after : List Json}
      {trees : List Tree}
      {path : List Hop}
      (hBefore : ItemsDenote elem before trees)
      (hItem : Reaches elem item path target s) :
      Reaches (.list elem) (.array (before ++ item :: after))
        (.index before.length :: path) target s

------------------------------------------------------------
-- Causes
------------------------------------------------------------

/- The kind of the literals of a scalar type. -/
def ScalarType.literalKind : ScalarType → LiteralKind
  | .string => .string
  | .int64 => .int
  | .float64 => .float
  | .bool => .bool

/- The tag of the objects of a shape, if they have one. -/
def Shape.tag? : Shape → Option String
  | .node t => t.category.tag?
  | .sum s => some s.tag
  | _ => none

/- The name of the type of objects of a shape. -/
def Shape.objectName? : Shape → Option String
  | .node t => some t.name
  | .sum s => some s.name
  | _ => none

/- A field that has to be present has no value. -/
def Field.MissingFrom
    (f : Field)
    (values : List (String × Tree)) : Prop :=
  f.presence = .required ∧ f.AbsentFrom values

/-
  A document does not conform to a shape, for a cause that lies
  in the document itself and not in a part of it.
-/
inductive Justified : Shape → Json → Cause → Prop where
  | noObject
      {shape : Shape}
      {j : Json}
      {name : String}
      (hShape : shape.objectName? = some name)
      (hOther : ∀ members, j ≠ .object members) :
      Justified shape j (.wrongShape "object" j.head.kind.text)
  | noArray
      {elem : Shape}
      {j : Json}
      (hOther : ∀ items, j ≠ .array items) :
      Justified (.list elem) j (.wrongShape "array" j.head.kind.text)
  | otherKind
      {type : ScalarType}
      {j : Json}
      (hOther : ∀ text, j ≠ .literal ⟨type.literalKind, text⟩) :
      Justified (.scalar type) j
        (.typeMismatch type.literalKind.text j.head.kind.text)
  | tagKind
      {shape : Shape}
      {tag : String}
      {value : Json}
      {members : List (String × Json)}
      (hTag : shape.tag? = some tag)
      (hOther : ∀ name, value ≠ .string name) :
      Justified shape (.object ((tag, value) :: members))
        (.typeMismatch "string" value.head.kind.text)
  | intRange
      {text : String}
      (hRange : OutOfRange .int text) :
      Justified (.scalar .int64) (.literal ⟨.int, text⟩)
        (.invalidLiteral "int64" text)
  | floatRange
      {text : String}
      (hRange : OutOfRange .float text) :
      Justified (.scalar .float64) (.literal ⟨.float, text⟩)
        (.invalidLiteral "float64" text)
  | empty
      {shape : Shape}
      {tag name : String}
      (hTag : shape.tag? = some tag)
      (hName : shape.objectName? = some name) :
      Justified shape (.object []) (.emptyObject name)
  | misplaced
      {shape : Shape}
      {tag key : String}
      {value : Json}
      {members : List (String × Json)}
      (hTag : shape.tag? = some tag)
      (hKey : key ≠ tag) :
      Justified shape (.object ((key, value) :: members))
        (.misplacedTag tag ("key \"" ++ key ++ "\""))
  | unknown
      {sum : NodeSum}
      {name : String}
      {members : List (String × Json)}
      (hName : ∀ t : NodeType,
        t.category = sum.category → t.name ≠ name) :
      Justified (.sum sum)
        (.object ((sum.tag, .string name) :: members))
        (.unknownVariant sum.name name)
  | otherVariant
      {t : NodeType}
      {tag name : String}
      {members : List (String × Json)}
      (hTag : t.category.tag? = some tag)
      (hName : name ≠ t.name) :
      Justified (.node t)
        (.object ((tag, .string name) :: members))
        (.wrongVariant t.name name)
  | unexpected
      {shape : Shape}
      {j value : Json}
      {t : NodeType}
      {key : String}
      {before after : List (String × Json)}
      {values : List (String × Tree)}
      (hNode :
        NodeMembers shape j t (before ++ (key, value) :: after))
      (hBefore : MembersDenote t before values)
      (hKey : ∀ f ∈ t.fields, f.carried = true → f.key ≠ key) :
      Justified shape j (.unexpectedKey key t.name)
  | missing
      {shape : Shape}
      {j : Json}
      {t : NodeType}
      {f : Field}
      {members : List (String × Json)}
      {values : List (String × Tree)}
      {before after : List Field}
      (hNode : NodeMembers shape j t members)
      (hMembers : MembersDenote t members values)
      (hFields : t.fields = before ++ f :: after)
      (hMissing : f.MissingFrom values)
      (hFirst : ∀ g ∈ before, ¬ g.MissingFrom values) :
      Justified shape j (.missingField t.name f.key)

/-
  The path of an error reaches a part at which its cause is
  justified.
-/
def Located
    (shape : Shape)
    (j : Json)
    (e : DecodeError) : Prop :=
  ∃ target s,
    Reaches shape j e.path target s ∧ Justified target s e.cause

------------------------------------------------------------
-- Errors of Literals
------------------------------------------------------------

/- The text of a literal is missing only in other kinds of tokens. -/
theorem Token.literalText_eq_error
    {kind : LiteralKind}
    {token : Token}
    {e : DecodeError}
    (h : token.literalText kind = .error e) :
    e = .here (.typeMismatch kind.text token.kind.text) := by
  unfold literalText at h
  dsimp only at h
  split at h
  · split at h
    · cases h
    · cases h
      rfl
  · cases h
    rfl

/- A token that is no literal of the kind of a scalar type. -/
theorem ScalarType.ofToken_of_otherKind
    {type : ScalarType}
    {token : Token}
    (h : ∀ text, token ≠ .literal ⟨type.literalKind, text⟩) :
    type.ofToken token =
      .error (.here (.typeMismatch type.literalKind.text
        token.kind.text)) := by
  have hText :
      token.literalText type.literalKind =
        .error (.here (.typeMismatch type.literalKind.text
          token.kind.text)) := by
    cases token with
    | literal lit =>
        rcases lit with ⟨kind, text⟩
        have hKind : kind ≠ type.literalKind := by
          intro hEq
          exact h text (by rw [hEq])
        simp [Token.literalText, hKind]
    | _ => rfl
  cases type with
  | string =>
      rw [literalKind] at hText ⊢
      simp [ofToken, Token.readString, hText, Except.map]
  | int64 =>
      rw [literalKind] at hText ⊢
      simp [ofToken, Token.readInt, hText, Except.map]
  | float64 =>
      rw [literalKind] at hText ⊢
      simp [ofToken, Token.readFloat, hText, Except.map]
  | bool =>
      rw [literalKind] at hText ⊢
      simp [ofToken, Token.readBool, hText, Except.map]

theorem ScalarType.ofToken_int
    (text : String) :
    ScalarType.int64.ofToken (.literal ⟨.int, text⟩) =
      match readInt64? text with
      | some n => .ok (.int n)
      | none => .error (.here (.invalidLiteral "int64" text)) := by
  simp only [ofToken, Token.readInt, Token.literalText, if_true]
  cases readInt64? text <;> rfl

theorem ScalarType.ofToken_float
    (text : String) :
    ScalarType.float64.ofToken (.literal ⟨.float, text⟩) =
      match readFloat? text with
      | some x => .ok (.float x)
      | none => .error (.here (.invalidLiteral "float64" text)) := by
  simp only [ofToken, Token.readFloat, Token.literalText, if_true]
  cases readFloat? text <;> rfl

/-
  What a scalar type refuses: a token of another kind, and a
  number that has no value of the type.
-/
theorem ScalarType.ofToken_eq_error
    {type : ScalarType}
    {token : Token}
    {e : DecodeError}
    (h : type.ofToken token = .error e) :
    e = .here (.typeMismatch type.literalKind.text
        token.kind.text) ∨
      ∃ text,
        e = .here (.invalidLiteral "int64" text) ∨
          e = .here (.invalidLiteral "float64" text) := by
  by_cases hKind : ∃ text, token = .literal ⟨type.literalKind, text⟩
  · rcases hKind with ⟨text, rfl⟩
    refine .inr ⟨text, ?_⟩
    cases type with
    | string => cases h
    | bool => cases h
    | int64 =>
        rw [literalKind, ofToken_int] at h
        split at h
        · cases h
        · cases h
          exact .inl rfl
    | float64 =>
        rw [literalKind, ofToken_float] at h
        split at h
        · cases h
        · cases h
          exact .inr rfl
  · rw [ofToken_of_otherKind fun text hEq => hKind ⟨text, hEq⟩] at h
    cases h
    exact .inl rfl

/- A literal of the grammar that is a number. -/
theorem Grammar.Scalar.number_of_kind
    {bytes : List UInt8}
    {kind : LiteralKind}
    {text : String}
    (h : Scalar bytes ⟨kind, text⟩)
    (hKind : kind = .int ∨ kind = .float) :
    Number (utf8 text.toList) kind := by
  cases h with
  | word hWord =>
      simp [words] at hWord
      rcases hKind with rfl | rfl <;> simp at hWord
  | number hNumber => exact hNumber
  | string => rcases hKind with hEq | hEq <;> cases hEq

namespace Json

variable {j : Json} {shape : Shape} {e : DecodeError}

theorem head_eq_literal_iff
    {lit : Literal} :
    j.head = .literal lit ↔ j = .literal lit := by
  cases j <;> simp [head]

/- What is wrong with a literal lies in the literal itself. -/
theorem justified_of_scalar_error
    {type : ScalarType}
    (hSpelled : Spelled j.tokens)
    (h : j.decodeAs (.scalar type) = .error e) :
    Justified (.scalar type) j e.cause := by
  rw [decodeAs_scalar] at h
  by_cases hKind : ∃ text, j = .literal ⟨type.literalKind, text⟩
  · rcases hKind with ⟨text, rfl⟩
    have hScalar := hSpelled ⟨type.literalKind, text⟩ (by simp [tokens])
    rw [head] at h
    cases type with
    | string => cases h
    | bool => cases h
    | int64 =>
        rw [ScalarType.literalKind, ScalarType.ofToken_int] at h
        split at h
        · cases h
        · rename_i hNone
          cases h
          have hNumber := hScalar.number_of_kind (.inl rfl)
          exact .intRange ((readInt64?_eq_none_iff hNumber).mp hNone)
    | float64 =>
        rw [ScalarType.literalKind, ScalarType.ofToken_float] at h
        split at h
        · cases h
        · rename_i hNone
          cases h
          have hNumber := hScalar.number_of_kind (.inr rfl)
          exact .floatRange
            ((readFloat?_eq_none_iff hNumber).mp hNone)
  · have hOther : ∀ text, j ≠ .literal ⟨type.literalKind, text⟩ :=
      fun text hEq => hKind ⟨text, hEq⟩
    rw [ScalarType.ofToken_of_otherKind fun text hEq =>
      hOther text (head_eq_literal_iff.mp hEq)] at h
    cases h
    exact .otherKind hOther

------------------------------------------------------------
-- Errors of Parts
------------------------------------------------------------

/- The first element that fails, behind elements that conform. -/
theorem decodeItems_eq_error_iff
    {items : List Json}
    {elem : Shape}
    {i : Nat} :
    decodeItems items elem i = .error e ↔
      ∃ before item after trees e',
        items = before ++ item :: after ∧
          ItemsDenote elem before trees ∧
          item.decodeAs elem = .error e' ∧
          e = e'.atIndex (i + before.length) := by
  induction items generalizing i with
  | nil => simp [decodeItems]
  | cons item items ih =>
      rw [decodeItems, Action.except_bind_eq_error_iff]
      simp only [Action.except_mapError_eq_error_iff,
        Action.except_mapError_eq_ok_iff,
        Action.except_bind_eq_error_iff, ih]
      constructor
      · intro hCases
        rcases hCases with ⟨e', hItem, rfl⟩ | ⟨v, hItem, hRest⟩
        · exact ⟨[], item, items, [], e', rfl, .nil, hItem, by simp⟩
        · rcases hRest with
            ⟨before, next, after, trees, e', rfl, hBefore, hNext,
              rfl⟩ | ⟨_, _, hEq⟩
          · refine ⟨item :: before, next, after, v :: trees, e', rfl,
              .cons ((decodeAs_eq_ok_iff _ _ _).mp hItem) hBefore,
              hNext, ?_⟩
            rw [List.length_cons, Nat.add_assoc, Nat.add_comm 1]
          · cases hEq
      · intro hParts
        rcases hParts with
          ⟨before, next, after, trees, e', hSplit, hBefore, hNext,
            rfl⟩
        cases hBefore with
        | nil =>
            cases hSplit
            exact .inl ⟨e', hNext, by simp⟩
        | @cons _ first before v trees hFirst hBefore =>
            cases hSplit
            refine .inr ⟨v, (decodeAs_eq_ok_iff _ _ _).mpr hFirst,
              .inl ⟨before, next, after, trees, e', rfl, hBefore,
                hNext, ?_⟩⟩
            rw [List.length_cons, Nat.add_assoc, Nat.add_comm 1]

theorem decodeMember_of_field
    {t : NodeType}
    {f : Field}
    (value : Json)
    (hField : f ∈ t.fields)
    (hCarried : f.carried = true) :
    decodeMember t f.key value =
      (value.decodeAs f.shape).mapError (·.within t.name f.key) := by
  rw [decodeMember, NodeType.field?_key_of_mem hField hCarried]

/- A member that is decoded has the key of a field. -/
theorem decodeMember_eq_ok_iff
    {t : NodeType}
    {key : String}
    {value : Json}
    {v : Tree} :
    decodeMember t key value = .ok v ↔
      ∃ f ∈ t.fields,
        f.carried = true ∧ f.key = key ∧
          Denotes f.shape value v := by
  constructor
  · intro h
    unfold decodeMember at h
    split at h
    · cases h
    · rename_i f hField
      rcases NodeType.field?_eq_some_iff.mp hField with
        ⟨hMem, hCarried, hKey⟩
      rw [Action.except_mapError_eq_ok_iff, decodeAs_eq_ok_iff] at h
      exact ⟨f, hMem, hCarried, hKey, h⟩
  · intro hParts
    rcases hParts with ⟨f, hMem, hCarried, rfl, hDenotes⟩
    rw [decodeMember_of_field value hMem hCarried,
      Action.except_mapError_eq_ok_iff, decodeAs_eq_ok_iff]
    exact hDenotes

/- A member that fails has an unknown key or a value that fails. -/
theorem decodeMember_eq_error_iff
    {t : NodeType}
    {key : String}
    {value : Json} :
    decodeMember t key value = .error e ↔
      ((∀ f ∈ t.fields, f.carried = true → f.key ≠ key) ∧
        e = .here (.unexpectedKey key t.name)) ∨
      ∃ f ∈ t.fields,
        f.carried = true ∧ f.key = key ∧
          ∃ e', value.decodeAs f.shape = .error e' ∧
            e = e'.within t.name key := by
  cases hField : t.field? key with
  | none =>
      have hNone :
          ∀ f ∈ t.fields, f.carried = true → f.key ≠ key := by
        intro f hMem hCarried hKey
        rw [NodeType.field?_eq_some_iff.mpr ⟨hMem, hCarried, hKey⟩]
          at hField
        cases hField
      rw [decodeMember, hField]
      constructor
      · intro h
        cases h
        exact .inl ⟨hNone, rfl⟩
      · intro hCases
        rcases hCases with
          ⟨_, rfl⟩ | ⟨f, hMem, hCarried, hKey, _⟩
        · rfl
        · exact absurd hKey (hNone f hMem hCarried)
  | some f =>
      rcases NodeType.field?_eq_some_iff.mp hField with
        ⟨hMem, hCarried, rfl⟩
      rw [decodeMember_of_field value hMem hCarried,
        Action.except_mapError_eq_error_iff]
      constructor
      · intro hParts
        rcases hParts with ⟨e', hValue, rfl⟩
        exact .inr ⟨f, hMem, hCarried, rfl, e', hValue, rfl⟩
      · intro hCases
        rcases hCases with
          ⟨hNone, _⟩ | ⟨g, hMem', hCarried', hKey, e', hValue, rfl⟩
        · exact absurd rfl (hNone f hMem hCarried)
        · have hSame :=
            NodeType.field?_eq_some_iff.mpr ⟨hMem', hCarried', hKey⟩
          rw [hField] at hSame
          cases hSame
          exact ⟨e', hValue, rfl⟩

/- The first member that fails, behind members that conform. -/
theorem decodeMembers_eq_error_iff
    {members : List (String × Json)}
    {t : NodeType}
    {done : List (String × Tree)} :
    decodeMembers members t done = .error e ↔
      ∃ before key value after values,
        members = before ++ (key, value) :: after ∧
          MembersDenote t before values ∧
          decodeMember t key value = .error e := by
  induction members generalizing done with
  | nil => simp [decodeMembers]
  | cons m members ih =>
      rcases m with ⟨key, value⟩
      rw [decodeMembers_cons, Action.except_bind_eq_error_iff]
      simp only [ih]
      constructor
      · intro hCases
        rcases hCases with
          hError |
          ⟨v, hFirst, before, key', value', after, values, rfl,
            hBefore, hNext⟩
        · exact ⟨[], key, value, members, [], rfl, .nil, hError⟩
        · rcases decodeMember_eq_ok_iff.mp hFirst with
            ⟨f, hField, hCarried, rfl, hDenotes⟩
          exact ⟨(f.key, value) :: before, key', value', after,
            (f.key, v) :: values, rfl,
            .cons hField hCarried hDenotes hBefore, hNext⟩
      · intro hParts
        rcases hParts with
          ⟨before, key', value', after, values, hSplit, hBefore,
            hNext⟩
        cases hBefore with
        | nil =>
            cases hSplit
            exact .inl hNext
        | @cons _ f first v before values hField hCarried hFirst
            hBefore =>
            cases hSplit
            exact .inr ⟨v, decodeMember_eq_ok_iff.mpr
              ⟨f, hField, hCarried, rfl, hFirst⟩, before, key',
              value', after, values, rfl, hBefore, hNext⟩

end Json

namespace NodeType

variable {t : NodeType} {values : List (String × Tree)}
variable {e : DecodeError}

theorem slot_eq_error_iff
    {f : Field} :
    t.slot values.reverse f = .error e ↔
      f.MissingFrom values ∧
        e = .here (.missingField t.name f.key) := by
  rw [Field.MissingFrom, ← found_eq_none_iff, slot]
  cases (if f.carried then values.reverse.lookup f.key else none) with
  | some v => simp
  | none => cases f.presence <;> simp [eq_comm]

/- The first field that has to be present and is absent. -/
theorem slots_eq_error_iff
    {fields : List Field} :
    t.slots values.reverse fields = .error e ↔
      ∃ before f after,
        fields = before ++ f :: after ∧ f.MissingFrom values ∧
          (∀ g ∈ before, ¬ g.MissingFrom values) ∧
          e = .here (.missingField t.name f.key) := by
  induction fields with
  | nil => simp [slots]
  | cons first fields ih =>
      rw [slots, Action.except_bind_eq_error_iff]
      simp only [Action.except_bind_eq_error_iff, ih,
        slot_eq_error_iff]
      constructor
      · intro hCases
        rcases hCases with
          ⟨hMissing, rfl⟩ |
          ⟨o, hSlot, ⟨before, f, after, rfl, hMissing, hBefore, rfl⟩ |
            ⟨_, _, hEq⟩⟩
        · exact ⟨[], first, fields, rfl, hMissing,
            List.forall_mem_nil _, rfl⟩
        · have hFirst : ¬ first.MissingFrom values := by
            intro hMissing'
            rw [slot_eq_error_iff.mpr ⟨hMissing', rfl⟩] at hSlot
            cases hSlot
          exact ⟨first :: before, f, after, rfl, hMissing,
            List.forall_mem_cons.mpr ⟨hFirst, hBefore⟩, rfl⟩
        · cases hEq
      · intro hParts
        rcases hParts with
          ⟨before, f, after, hSplit, hMissing, hBefore, rfl⟩
        cases before with
        | nil =>
            cases hSplit
            exact .inl ⟨hMissing, rfl⟩
        | cons g before =>
            cases hSplit
            rw [List.forall_mem_cons] at hBefore
            cases hSlot : t.slot values.reverse first with
            | error e =>
                exact absurd (slot_eq_error_iff.mp hSlot).1 hBefore.1
            | ok o =>
                exact .inr ⟨o, rfl, .inl ⟨before, f, after, rfl,
                  hMissing, hBefore.2, rfl⟩⟩

theorem ofMembers_eq_error_iff :
    t.ofMembers values.reverse = .error e ↔
      ∃ before f after,
        t.fields = before ++ f :: after ∧ f.MissingFrom values ∧
          (∀ g ∈ before, ¬ g.MissingFrom values) ∧
          e = .here (.missingField t.name f.key) := by
  rw [ofMembers, Action.except_map_eq_error_iff, slots_eq_error_iff]

end NodeType

------------------------------------------------------------
-- Errors of Objects
------------------------------------------------------------

namespace Json

variable {j : Json} {shape : Shape} {e : DecodeError}
variable {t : NodeType} {members : List (String × Json)}

/- A tag with a name chooses the type of the node. -/
theorem decodeTagged_string
    (tag name : String)
    (members : List (String × Json))
    (choose : String → Except DecodeError NodeType) :
    decodeTagged ((tag, .string name) :: members) tag choose =
      (choose name >>= fun t =>
        decodeMembers members t [] >>= t.ofMembers) := by
  rw [decodeTagged, if_pos rfl, readString_head_eq_ok_iff.mpr rfl]
  rfl

/- The members of a node are decoded, and then its slots. -/
theorem decodeAs_of_nodeMembers
    (h : NodeMembers shape j t members) :
    j.decodeAs shape =
      (decodeMembers members t [] >>= t.ofMembers) := by
  cases h with
  | plain hOther hMembers =>
      have hEmpty : members.isEmpty = false := by
        simpa using hMembers
      rw [decodeAs, NodeType.category_eq_other_iff.mpr hOther]
      simp only [hEmpty, Bool.false_eq_true, if_false]
  | tagged hTag =>
      rw [decodeAs, hTag]
      simp only [List.isEmpty_cons, Bool.false_eq_true, if_false]
      rw [decodeTagged_string, chooseNode_eq_ok_iff.mpr ⟨rfl, rfl⟩]
      rfl
  | variant hSum =>
      rw [decodeAs]
      simp only [List.isEmpty_cons, Bool.false_eq_true, if_false]
      rw [decodeTagged_string,
        chooseVariant_eq_ok_iff.mpr ⟨hSum, rfl⟩]
      rfl

/- An object with a tag is decoded tag first. -/
theorem exists_decodeTagged
    {tag : String}
    {m : String × Json}
    (hTag : shape.tag? = some tag) :
    ∃ choose,
      (Json.object (m :: members)).decodeAs shape =
        decodeTagged (m :: members) tag choose := by
  cases shape with
  | scalar type => cases hTag
  | list elem => cases hTag
  | node t =>
      rw [Shape.tag?] at hTag
      refine ⟨chooseNode t, ?_⟩
      rw [decodeAs, hTag]
      rfl
  | sum sum =>
      cases hTag
      refine ⟨chooseVariant sum, ?_⟩
      rw [decodeAs]
      rfl

/- A tag that holds no name. -/
theorem readString_head_of_ne
    {value : Json}
    (h : ∀ name, value ≠ .string name) :
    value.head.readString =
      .error (.here
        (.typeMismatch "string" value.head.kind.text)) := by
  cases value with
  | literal lit =>
      rcases lit with ⟨kind, text⟩
      have hKind : kind ≠ .string := by
        intro hEq
        subst hEq
        exact h text rfl
      simp [head, Token.readString, Token.literalText, hKind,
        LiteralKind.text]
  | array items => rfl
  | object members => rfl

/- A cause that is justified is the error of decoding. -/
theorem decodeAs_of_justified
    {cause : Cause}
    (h : Justified shape j cause) :
    j.decodeAs shape = .error (.here cause) := by
  cases h with
  | noObject hShape hOther =>
      have hHead : j.head ≠ .objectOpen := by
        intro hEq
        rcases eq_object_of_head hEq with ⟨members, hObject⟩
        exact hOther members hObject
      cases shape with
      | scalar type => cases hShape
      | list elem => cases hShape
      | node t => exact decodeAs_node_of_head t hHead
      | sum sum => exact decodeAs_sum_of_head sum hHead
  | noArray hOther =>
      apply decodeAs_list_of_head
      intro hEq
      rcases eq_array_of_head hEq with ⟨items, hArray⟩
      exact hOther items hArray
  | otherKind hOther =>
      rw [decodeAs_scalar]
      apply ScalarType.ofToken_of_otherKind
      intro text hEq
      exact hOther text (head_eq_literal_iff.mp hEq)
  | intRange hRange =>
      rw [decodeAs_scalar, head, ScalarType.ofToken_int,
        hRange.readInt64?_eq]
  | floatRange hRange =>
      rw [decodeAs_scalar, head, ScalarType.ofToken_float,
        hRange.readFloat?_eq]
  | empty hTag hName =>
      cases shape with
      | scalar type => cases hTag
      | list elem => cases hTag
      | node t =>
          cases hName
          rw [Shape.tag?] at hTag
          rw [decodeAs, hTag]
          rfl
      | sum sum =>
          cases hName
          rw [decodeAs]
          rfl
  | misplaced hTag hKey =>
      rcases exists_decodeTagged hTag with ⟨choose, hDecode⟩
      rw [hDecode, decodeTagged, if_neg hKey]
  | tagKind hTag hOther =>
      rcases exists_decodeTagged hTag with ⟨choose, hDecode⟩
      rw [hDecode, decodeTagged, if_pos rfl,
        readString_head_of_ne hOther]
      rfl
  | @unknown sum name members hName =>
      have hNone : sum.variant? name = none := by
        rw [Option.eq_none_iff_forall_ne_some]
        intro t hSome
        rcases NodeSum.variant?_eq_some_iff.mp hSome with
          ⟨hSum, hEq⟩
        exact hName t hSum hEq
      rw [decodeAs]
      simp only [List.isEmpty_cons, Bool.false_eq_true, if_false]
      rw [decodeTagged_string, chooseVariant, hNone]
      rfl
  | otherVariant hTag hName =>
      rw [decodeAs, hTag]
      simp only [List.isEmpty_cons, Bool.false_eq_true, if_false]
      rw [decodeTagged_string, chooseNode, if_neg hName]
      rfl
  | unexpected hNode hBefore hKey =>
      rw [decodeAs_of_nodeMembers hNode,
        Action.except_bind_eq_error_iff, decodeMembers_eq_error_iff]
      exact .inl ⟨_, _, _, _, _, rfl, hBefore,
        decodeMember_eq_error_iff.mpr (.inl ⟨hKey, rfl⟩)⟩
  | missing hNode hMembers hFields hMissing hFirst =>
      rw [decodeAs_of_nodeMembers hNode,
        Action.except_bind_eq_error_iff]
      refine .inr ⟨_, (decodeMembers_eq_ok_iff _ _ _ _).mpr
        ⟨_, hMembers, rfl⟩, ?_⟩
      rw [List.append_nil, NodeType.ofMembers_eq_error_iff]
      exact ⟨_, _, _, hFields, hMissing, hFirst, rfl⟩

/-
  An error at a part that a path reaches is the error of the whole
  document, with the path ahead of its own.
-/
theorem decodeAs_of_reaches
    {path : List Hop}
    {target : Shape}
    {s : Json}
    (hReaches : Reaches shape j path target s)
    (hPart : s.decodeAs target = .error e) :
    j.decodeAs shape = .error ⟨e.cause, path ++ e.path⟩ := by
  induction hReaches with
  | here => exact hPart
  | field hNode hBefore hField hCarried _ ih =>
      rw [decodeAs_of_nodeMembers hNode,
        Action.except_bind_eq_error_iff, decodeMembers_eq_error_iff]
      exact .inl ⟨_, _, _, _, _, rfl, hBefore,
        decodeMember_eq_error_iff.mpr
          (.inr ⟨_, hField, hCarried, rfl, _, ih hPart, rfl⟩)⟩
  | index hBefore _ ih =>
      rw [decodeAs, Action.except_map_eq_error_iff,
        decodeItems_eq_error_iff]
      refine ⟨_, _, _, _, _, rfl, hBefore, ih hPart, ?_⟩
      rw [Nat.zero_add]
      rfl

end Json

end TreeWire
