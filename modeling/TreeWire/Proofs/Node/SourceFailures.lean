import TreeWire.Proofs.Node.Lockstep
import TreeWire.Proofs.Node.OpenValues
import TreeWire.Proofs.Source.InputErrors

/-
  The paths of source failures.

  A stream delivers tokens and then fails.  A reading on it gives
  what the tokens that it took stand for, finds fault with them,
  or comes to the failure; and where it comes to the failure, the
  tokens have begun a value.  So an error of the source has the
  hops that `Begins` tells, and no others.

  Key definitions include:
    * `Broken`
    * `Breaks`

  Main statements:
    * `Broken.bind`
    * `decodeWithin_breaks`
    * `decode_source_failure`
-/

namespace TreeWire

variable {μ : Type} [TokenMachine μ]

------------------------------------------------------------
-- Readings of Streams That Break Off
------------------------------------------------------------

/-
  What a reading comes to, on a stream that fails with an error
  once its tokens are used up: a value and the tokens that are
  left, an error of the value, or the error of the stream with
  hops in front.
-/
inductive Broken
    {α : Type}
    (e : DecodeError)
    (Done : α → List Token → Prop)
    (Told : List Hop → Prop) :
    Except DecodeError α × Stream μ → Prop where
  | ok
      {a : α}
      {s : Stream μ}
      {rest : List Token}
      (hRest : s.FailsAfter rest e)
      (hDone : Done a rest) :
      Broken e Done Told (.ok a, s)
  | wrong
      {e' : DecodeError}
      {s : Stream μ}
      (hCause : e'.cause.OfValue) :
      Broken e Done Told (.error e', s)
  | source
      (told : List Hop)
      {s : Stream μ}
      (hTold : Told told) :
      Broken e Done Told (.error ⟨e.cause, told ++ e.path⟩, s)

namespace Broken

variable {α β : Type}
variable {e : DecodeError}
variable {Done : α → List Token → Prop}
variable {Done' : β → List Token → Prop}
variable {Told Told' : List Hop → Prop}

theorem bind
    {x : Reading (Stream μ) α}
    {f : α → Reading (Stream μ) β}
    {s : Stream μ}
    (h : Broken e Done Told (x s))
    (hTold : ∀ told, Told told → Told' told)
    (hRest :
      ∀ a rest s₁,
        Done a rest → s₁.FailsAfter rest e →
          Broken e Done' Told' (f a s₁)) :
    Broken e Done' Told' ((x >>= f) s) := by
  generalize hOut : x s = out at h
  cases h with
  | ok hFails hDone =>
      rw [Action.bind_ok hOut]
      exact hRest _ _ _ hDone hFails
  | wrong hCause =>
      rw [Action.bind_error hOut]
      exact .wrong hCause
  | source told h =>
      rw [Action.bind_error hOut]
      exact .source told (hTold _ h)

theorem weaken
    {Done' : α → List Token → Prop}
    {out : Except DecodeError α × Stream μ}
    (h : Broken e Done Told out)
    (hDone : ∀ a rest, Done a rest → Done' a rest)
    (hTold : ∀ told, Told told → Told' told) :
    Broken e Done' Told' out := by
  cases h with
  | ok hFails h => exact .ok hFails (hDone _ _ h)
  | wrong hCause => exact .wrong hCause
  | source told h => exact .source told (hTold _ h)

/- A hop is put in front of every error. -/
theorem hop
    {x : Reading (Stream μ) α}
    {s : Stream μ}
    (first : Hop)
    (h : Broken e Done Told (x s))
    (hTold : ∀ told, Told told → Told' (first :: told)) :
    Broken e Done Told'
      (Reading.mapError
        (fun e => ⟨e.cause, first :: e.path⟩) x s) := by
  generalize hOut : x s = out at h
  cases h with
  | ok hFails hDone =>
      rw [Reading.mapError_ok hOut]
      exact .ok hFails hDone
  | wrong hCause =>
      rw [Reading.mapError_error hOut]
      exact .wrong hCause
  | source told h =>
      rw [Reading.mapError_error hOut]
      exact .source (first :: told) (hTold _ h)

theorem ofExcept
    {result : Except DecodeError α}
    {s : Stream μ}
    {rest : List Token}
    (hFails : s.FailsAfter rest e)
    (hError : ∀ e', result = .error e' → e'.cause.OfValue)
    (hOk : ∀ a, result = .ok a → Done a rest) :
    Broken e Done Told
      ((Reading.ofExcept result : Reading (Stream μ) α) s) := by
  cases result with
  | error e' => exact .wrong (hError e' rfl)
  | ok a => exact .ok hFails (hOk a rfl)

end Broken

------------------------------------------------------------
-- Small Readings
------------------------------------------------------------

/- A stream comes to its failure at once, and no hop is told. -/
def AtFailure
    (ts : List Token)
    (told : List Hop) : Prop :=
  ts = [] ∧ told = []

section

variable {s : Stream μ} {ts : List Token} {e : DecodeError}

theorem broken_nextToken
    (h : s.FailsAfter ts e) :
    Broken e (fun t rest => ts = t :: rest) (AtFailure ts)
      ((nextToken : Reading (Stream μ) Token) s) := by
  cases ts with
  | nil =>
      rcases Stream.FailsAfter.nil_iff.mp h with ⟨s₁, hNext⟩
      rw [nextToken_apply, hNext]
      exact .source [] ⟨rfl, rfl⟩
  | cons t rest =>
      rcases Stream.FailsAfter.cons_iff.mp h with ⟨s₁, hNext, hRest⟩
      rw [nextToken_apply, hNext]
      exact .ok hRest rfl

theorem broken_expectMark
    (mark : Token)
    (h : s.FailsAfter ts e) :
    Broken e (fun _ rest => ts = mark :: rest) (AtFailure ts)
      (expectMark mark s) := by
  unfold expectMark
  refine (broken_nextToken h).bind (fun _ h => h) ?_
  intro t rest s₁ hTokens hRest
  split
  · next hMark => exact .ok hRest (hMark ▸ hTokens)
  · exact .wrong trivial

/- A closing mark is taken, and any other token is left. -/
def ClosesAt
    (mark : Token)
    (ts : List Token) : Bool → List Token → Prop
  | true, rest => ts = mark :: rest
  | false, rest =>
      rest = ts ∧ ts ≠ [] ∧ ∀ t more, ts = t :: more → t ≠ mark

theorem broken_closes
    (mark : Token)
    (h : s.FailsAfter ts e) :
    Broken e (ClosesAt mark ts) (AtFailure ts) (closes mark s) := by
  cases ts with
  | nil =>
      rcases Stream.FailsAfter.nil_iff.mp h with ⟨s₁, hNext⟩
      rw [closes_error hNext]
      exact .source [] ⟨rfl, rfl⟩
  | cons t rest =>
      rcases Stream.FailsAfter.cons_iff.mp h with ⟨s₁, hNext, hRest⟩
      by_cases hMark : t = mark
      · rw [hMark] at hNext
        rw [closes_eq hNext]
        exact .ok hRest (hMark ▸ rfl)
      · rw [closes_ne hNext hMark]
        refine .ok (hRest.hold hNext)
          ⟨rfl, List.cons_ne_nil _ _, ?_⟩
        intro first more hEq
        cases hEq
        exact hMark

/- A key is taken, or the mark that closes an object. -/
def KeyAt
    (ts : List Token) : Option String → List Token → Prop
  | none, rest => ts = .objectClose :: rest
  | some key, rest => ts = .key key :: rest

theorem broken_nextKey
    (hEof : .eof ∉ ts)
    (h : s.FailsAfter ts e) :
    Broken e (KeyAt ts) (AtFailure ts)
      ((nextKey : Reading (Stream μ) (Option String)) s) := by
  unfold nextKey
  refine (broken_nextToken h).bind (fun _ h => h) ?_
  intro t rest s₁ hTokens hRest
  cases t with
  | key => exact .ok hRest hTokens
  | objectClose => exact .ok hRest hTokens
  | eof => exact absurd (hTokens ▸ List.mem_cons_self) hEof
  | _ => exact .wrong trivial

theorem broken_nextValue
    (h : s.FailsAfter ts e) :
    Broken e (fun t rest => ts = t :: rest) (AtFailure ts)
      ((nextValue : Reading (Stream μ) Token) s) := by
  unfold nextValue
  refine (broken_nextToken h).bind (fun _ h => h) ?_
  intro t rest s₁ hTokens hRest
  split
  · exact .ok hRest hTokens
  · exact .wrong trivial

/- The failure comes in a tag, before its name. -/
def InTag
    (tag : String)
    (ts : List Token)
    (told : List Hop) : Prop :=
  (ts = [] ∨ ts = [.key tag]) ∧ told = []

theorem broken_readTag
    (tag : String)
    (h : s.FailsAfter ts e) :
    Broken e
      (fun name rest =>
        ts = .key tag :: .literal ⟨.string, name⟩ :: rest)
      (InTag tag ts) (readTag tag s) := by
  unfold readTag
  refine (broken_nextToken h).bind
    (fun _ hEnd => ⟨.inl hEnd.1, hEnd.2⟩) ?_
  intro t rest s₁ hTokens hRest
  cases t with
  | key name =>
      dsimp only
      split
      · next hName =>
          subst hName
          refine (broken_nextValue hRest).bind ?_ ?_
          · rintro told ⟨rfl, hTold⟩
            exact ⟨.inr hTokens, hTold⟩
          · intro value later s₂ hValue hLater
            refine .ofExcept hLater
              (fun _ => Token.literalText_error) ?_
            intro text hText
            rw [hTokens, hValue, readString_ok hText]
      · exact .wrong trivial
  | _ => exact .wrong trivial

theorem broken_expectVariant
    (tag : String)
    (t : NodeType)
    (h : s.FailsAfter ts e) :
    Broken e
      (fun _ rest =>
        ts = .key tag :: .literal ⟨.string, t.name⟩ :: rest)
      (InTag tag ts) (expectVariant tag t s) := by
  unfold expectVariant
  refine (broken_readTag tag h).bind (fun _ h => h) ?_
  intro name rest s₁ hTokens hRest
  split
  · next hName => exact .ok hRest (hName ▸ hTokens)
  · exact .wrong trivial

end

------------------------------------------------------------
-- Values
------------------------------------------------------------

/- The first tokens are those of a document that denotes a tree. -/
def ValueAt
    (shape : Shape)
    (ts : List Token)
    (v : Tree)
    (rest : List Token) : Prop :=
  ∃ j, ts = j.tokens ++ rest ∧ Denotes shape j v

/- The tokens begin a value, in which these hops are told. -/
def ToldIn
    (shape : Shape)
    (ts : List Token)
    (told : List Hop) : Prop :=
  ∃ path, Begins shape ts path told

/- Less than so many tokens, and the end is none of them. -/
structure Short
    (size : Nat)
    (ts : List Token) : Prop where
  eof : .eof ∉ ts
  length : ts.length < size

theorem Short.tail
    {size : Nat}
    {t : Token}
    {ts : List Token}
    (h : Short (size + 1) (t :: ts)) :
    Short size ts :=
  ⟨fun hMem => h.eof (List.mem_cons_of_mem _ hMem),
    Nat.lt_of_succ_lt_succ h.length⟩

theorem Short.suffix
    {size : Nat}
    {ts us : List Token}
    (h : Short size ts)
    (hSuffix : us <:+ ts) :
    Short size us :=
  ⟨fun hMem => h.eof (hSuffix.mem hMem),
    Nat.lt_of_le_of_lt hSuffix.length_le h.length⟩

theorem Short.mono
    {size more : Nat}
    {ts : List Token}
    (h : Short size ts)
    (hLe : size ≤ more) :
    Short more ts :=
  ⟨h.eof, Nat.lt_of_lt_of_le h.length hLe⟩

/-
  A decoder gives the values of the tokens or comes to the
  failure in a value, as long as there are not too many tokens.
-/
def Breaks
    (e : DecodeError)
    (size : Nat)
    (d : Shape → Reading (Stream μ) Tree) : Prop :=
  ∀ (shape : Shape) {s : Stream μ} {ts : List Token},
    Short size ts → s.FailsAfter ts e →
      Broken e (ValueAt shape ts) (ToldIn shape ts) (d shape s)

/- A literal that has been taken. -/
theorem broken_ofToken
    {type : ScalarType}
    {token : Token}
    {rest : List Token}
    {s : Stream μ}
    {e : DecodeError}
    {Told : List Hop → Prop}
    (h : s.FailsAfter rest e) :
    Broken e (ValueAt (.scalar type) (token :: rest)) Told
      ((Reading.ofExcept (type.ofToken token) :
        Reading (Stream μ) Tree) s) := by
  refine .ofExcept h (fun _ => ScalarType.ofToken_error) ?_
  intro v hValue
  cases token with
  | literal lit =>
      exact ⟨.literal lit, rfl,
        .scalar (ScalarType.ofToken_literal_iff.mp hValue)⟩
  | _ =>
      rw [ScalarType.ofToken_of_otherKind (by simp)] at hValue
      cases hValue

------------------------------------------------------------
-- Members
------------------------------------------------------------

/- The tokens behind a key begin the value of a member. -/
inductive MemberBegins
    (t : NodeType)
    (key : String) :
    List Token → (path told : List Hop) → Prop where
  | value
      {f : Field}
      (hField : t.field? key = some f) :
      MemberBegins t key [] [.field t.name key]
        (if t.readsAhead then [] else [.field t.name key])
  | field
      {f : Field}
      {us : List Token}
      {path told : List Hop}
      (hField : t.field? key = some f)
      (hBegun : us ≠ [])
      (hValue : Begins f.shape us path told) :
      MemberBegins t key us
        (.field t.name key :: path) (.field t.name key :: told)
  | unknown
      (hField : t.field? key = none)
      (hAhead : t.readsAhead = true) :
      MemberBegins t key [] [] []

/- The tokens begin the members of a node. -/
inductive MembersBegin
    (t : NodeType) :
    List Token → (path told : List Hop) → Prop where
  | next
      {members : List (String × Json)}
      {values : List (String × Tree)}
      (hBefore : MembersDenote t members values) :
      MembersBegin t (Json.memberTokens members) [] []
  | member
      {members : List (String × Json)}
      {values : List (String × Tree)}
      {key : String}
      {us : List Token}
      {path told : List Hop}
      (hBefore : MembersDenote t members values)
      (hMember : MemberBegins t key us path told) :
      MembersBegin t
        (Json.memberTokens members ++ .key key :: us) path told

/- The members of a node that has begun go on with it. -/
theorem MembersBegin.begins
    {shape : Shape}
    {start ts : List Token}
    {t : NodeType}
    {path told : List Hop}
    (hStart : NodeStart shape start t)
    (h : MembersBegin t ts path told) :
    Begins shape (start ++ ts) path told := by
  cases h with
  | next hBefore => exact .members hStart hBefore
  | member hBefore hMember =>
      rw [← List.append_assoc]
      cases hMember with
      | value hField => exact .value hStart hBefore hField
      | field hField hBegun hValue =>
          exact .field hStart hBefore hField hBegun hValue
      | unknown hField hAhead =>
          exact .unknown hStart hBefore hField hAhead

section

variable {t : NodeType} {f : Field} {key : String}
variable {d : Shape → Reading (Stream μ) Tree}
variable {size : Nat}
variable {s : Stream μ} {ts : List Token} {e : DecodeError}

/- The value of the field with a key comes first. -/
def MemberAt
    (t : NodeType)
    (key : String)
    (ts : List Token)
    (v : Tree)
    (rest : List Token) : Prop :=
  ∃ f, t.field? key = some f ∧ ValueAt f.shape ts v rest

/- The value of a member whose key has been looked up. -/
theorem broken_memberValue
    {x : Reading (Stream μ) Tree}
    (hField : t.field? key = some f)
    (hBegun : ts ≠ [] ∨ t.readsAhead = false)
    (h : Broken e (ValueAt f.shape ts) (ToldIn f.shape ts) (x s)) :
    Broken e (MemberAt t key ts)
      (fun told => ∃ path, MemberBegins t key ts path told)
      (Reading.mapError (·.within t.name key) x s) := by
  refine (h.hop (.field t.name key) ?_).weaken
    (fun _ _ hValue => ⟨f, hField, hValue⟩) (fun _ h => h)
  rintro told ⟨path, hBegins⟩
  by_cases hFirst : ts = []
  · have hLazy := hBegun.resolve_left (fun h => h hFirst)
    have hValue : MemberBegins t key [] _ _ := .value hField
    rw [if_neg (by simp [hLazy])] at hValue
    subst hFirst
    rcases hBegins.hops_eq_nil with ⟨rfl, rfl⟩
    exact ⟨_, hValue⟩
  · exact ⟨_, .field hField hFirst hBegins⟩

theorem broken_readMember
    (hBreaks : Breaks e size d)
    (hShort : Short size ts)
    (h : s.FailsAfter ts e) :
    Broken e (MemberAt t key ts)
      (fun told => ∃ path, MemberBegins t key ts path told)
      (readMember t d key s) := by
  unfold readMember
  split
  · next hAhead =>
      cases ts with
      | nil =>
          rcases Stream.FailsAfter.nil_iff.mp h with ⟨s₁, hNext⟩
          rw [Action.bind_error (nextValue_error hNext)]
          refine .source [] ?_
          cases hField : t.field? key with
          | none => exact ⟨_, .unknown hField hAhead⟩
          | some f =>
              have hValue : MemberBegins t key [] _ _ :=
                .value hField
              rw [if_pos hAhead] at hValue
              exact ⟨_, hValue⟩
      | cons token rest =>
          rcases Stream.FailsAfter.cons_iff.mp h with
            ⟨s₁, hNext, hRest⟩
          have hHeld := hRest.hold hNext
          cases hStarts : token.startsValue with
          | false =>
              rw [Action.bind_error (nextValue_other hNext hStarts)]
              exact .wrong trivial
          | true =>
              rw [Action.bind_ok (nextValue_starts hNext hStarts)]
              cases hField : t.field? key with
              | none => exact .wrong trivial
              | some f =>
                  apply broken_memberValue hField
                    (.inl (List.cons_ne_nil _ _))
                  have hValue := hBreaks f.shape hShort hHeld
                  cases hShape : f.shape with
                  | scalar type => exact broken_ofToken hRest
                  | _ =>
                      rw [hShape] at hValue
                      exact hValue
  · next hLazy =>
      cases hField : t.field? key with
      | none => exact .wrong trivial
      | some f =>
          exact broken_memberValue hField
            (.inr (Bool.eq_false_of_not_eq_true hLazy))
            (hBreaks f.shape hShort h)

/- Members that conform come first, and the end of the object. -/
def MembersAt
    (t : NodeType)
    (done : List (String × Tree))
    (ts : List Token)
    (all : List (String × Tree))
    (rest : List Token) : Prop :=
  ∃ members values,
    ts = Json.memberTokens members ++ .objectClose :: rest ∧
      MembersDenote t members values ∧
      all = values.reverse ++ done

/- The induction is on the parts of the decoder. -/
theorem broken_readMembers
    (hBreaks : Breaks e size d)
    (hShort : Short size ts)
    {parts : Nat}
    (hParts : ts.length < parts)
    (done : List (String × Tree))
    (h : s.FailsAfter ts e) :
    Broken e (MembersAt t done ts)
      (fun told => ∃ path, MembersBegin t ts path told)
      (readMembers t d parts done s) := by
  induction parts generalizing done s ts with
  | zero => cases hParts
  | succ parts ih =>
      unfold readMembers
      refine (broken_nextKey hShort.eof h).bind ?_ ?_
      · rintro told ⟨rfl, rfl⟩
        exact ⟨[], .next .nil⟩
      intro found rest s₁ hKey hRest
      cases found with
      | none => exact .ok hRest ⟨[], [], hKey, .nil, rfl⟩
      | some key =>
          rcases hKey with rfl
          have hLater := hShort.mono (Nat.le_succ size) |>.tail
          refine (broken_readMember hBreaks hLater hRest).bind ?_ ?_
          · rintro told ⟨path, hMember⟩
            exact ⟨path, .member .nil hMember⟩
          rintro v behind s₂ ⟨f, hField, j, rfl, hDenotes⟩ hBehind
          rcases NodeType.field?_eq_some_iff.mp hField with
            ⟨hMem, hCarried, rfl⟩
          have hMore := hLater.suffix (List.suffix_append _ _)
          refine (ih hMore ?_ _ hBehind).weaken ?_ ?_
          · rw [List.length_cons, List.length_append] at hParts
            omega
          · rintro all last ⟨members, values, rfl, hValues, rfl⟩
            refine ⟨_, _, ?_,
              .cons hMem hCarried hDenotes hValues, ?_⟩
            · rw [Json.memberTokens, List.cons_append,
                List.append_assoc]
            · simp
          · rintro told ⟨path, hBegin⟩
            refine ⟨path, ?_⟩
            cases hBegin with
            | next hBefore =>
                exact .next (.cons hMem hCarried hDenotes hBefore)
            | member hBefore hMember =>
                have hAll := MembersBegin.member
                  (.cons hMem hCarried hDenotes hBefore) hMember
                rw [Json.memberTokens, List.cons_append,
                  List.append_assoc] at hAll
                exact hAll

/- The fields of a node come first, and the end of the object. -/
def FieldsAt
    (t : NodeType)
    (ts : List Token)
    (v : Tree)
    (rest : List Token) : Prop :=
  ∃ members,
    ts = Json.memberTokens members ++ .objectClose :: rest ∧
      Json.FieldsDenote t members v

theorem broken_readFields
    (hBreaks : Breaks e size d)
    (hShort : Short size ts)
    {parts : Nat}
    (hParts : ts.length < parts)
    (h : s.FailsAfter ts e) :
    Broken e (FieldsAt t ts)
      (fun told => ∃ path, MembersBegin t ts path told)
      (readFields t d parts s) := by
  unfold readFields
  refine (broken_readMembers hBreaks hShort hParts [] h).bind
    (fun _ h => h) ?_
  rintro all rest s₁ ⟨members, values, hTokens, hValues, rfl⟩ hRest
  refine .ofExcept hRest (fun _ => NodeType.ofMembers_error) ?_
  intro v hNode
  rw [List.append_nil] at hNode
  rcases NodeType.ofMembers_eq_ok_iff.mp hNode with
    ⟨slots, hSlots, rfl⟩
  exact ⟨members, hTokens, values, slots, hValues, hSlots, rfl⟩

end

------------------------------------------------------------
-- Elements
------------------------------------------------------------

section

variable {elem : Shape}
variable {d : Shape → Reading (Stream μ) Tree}
variable {size : Nat}
variable {s : Stream μ} {ts : List Token} {e : DecodeError}

/- Elements that conform come first, and the end of the list. -/
def ItemsAt
    (elem : Shape)
    (done : Array Tree)
    (ts : List Token)
    (all : Array Tree)
    (rest : List Token) : Prop :=
  ∃ items trees,
    ts = Json.itemTokens items ++ .arrayClose :: rest ∧
      ItemsDenote elem items trees ∧
      all.toList = done.toList ++ trees

/- The tokens begin the elements of a list, after so many others. -/
inductive ItemsBegin
    (elem : Shape)
    (i : Nat) :
    List Token → (path told : List Hop) → Prop where
  | next
      {items : List Json}
      {trees : List Tree}
      (hBefore : ItemsDenote elem items trees) :
      ItemsBegin elem i (Json.itemTokens items) [] []
  | item
      {items : List Json}
      {trees : List Tree}
      {us : List Token}
      {path told : List Hop}
      (hBefore : ItemsDenote elem items trees)
      (hBegun : us ≠ [])
      (hItem : Begins elem us path told) :
      ItemsBegin elem i (Json.itemTokens items ++ us)
        (.index (i + items.length) :: path)
        (.index (i + items.length) :: told)

/- The elements of a list that has begun go on with it. -/
theorem ItemsBegin.begins
    {path told : List Hop}
    (h : ItemsBegin elem 0 ts path told) :
    Begins (.list elem) (.arrayOpen :: ts) path told := by
  cases h with
  | next hBefore => exact .items hBefore
  | item hBefore hBegun hItem =>
      rw [Nat.zero_add]
      exact .item hBefore hBegun hItem

/- An element that conforms in front of others. -/
theorem ItemsBegin.cons
    {j : Json}
    {v : Tree}
    {i : Nat}
    {path told : List Hop}
    (hItem : Denotes elem j v)
    (h : ItemsBegin elem (i + 1) ts path told) :
    ItemsBegin elem i (j.tokens ++ ts) path told := by
  cases h with
  | next hBefore =>
      have hMore : ItemsBegin elem i _ [] [] :=
        .next (.cons hItem hBefore)
      exact hMore
  | item hBefore hBegun hLast =>
      have hMore : ItemsBegin elem i _ _ _ :=
        .item (.cons hItem hBefore) hBegun hLast
      rw [Json.itemTokens, List.append_assoc, List.length_cons,
        Nat.add_comm _ 1, ← Nat.add_assoc] at hMore
      exact hMore

/- The induction is on the parts of the decoder. -/
theorem broken_readItems
    (hBreaks : Breaks e size d)
    (hShort : Short size ts)
    (hSome : ts ≠ [])
    {parts : Nat}
    (hParts : ts.length < parts)
    (done : Array Tree)
    (h : s.FailsAfter ts e) :
    Broken e (ItemsAt elem done ts)
      (fun told => ∃ path, ItemsBegin elem done.size ts path told)
      (readItems (d elem) parts done s) := by
  induction parts generalizing done s ts with
  | zero => cases hParts
  | succ parts ih =>
      unfold readItems
      have hFirst :
          Broken e (ValueAt elem ts)
            (fun told =>
              ∃ path, ItemsBegin elem done.size ts path told)
            (Reading.mapError (·.atIndex done.size) (d elem) s) := by
        refine (hBreaks elem hShort h).hop (.index done.size) ?_
        rintro told ⟨path, hItem⟩
        exact ⟨_, .item .nil hSome hItem⟩
      refine hFirst.bind (fun _ h => h) ?_
      rintro v rest s₁ ⟨j, rfl, hDenotes⟩ hRest
      refine (broken_closes .arrayClose hRest).bind ?_ ?_
      · rintro told ⟨rfl, rfl⟩
        have hLast : ItemsBegin elem done.size _ [] [] :=
          .next (.cons hDenotes .nil)
        exact ⟨[], hLast⟩
      intro closed behind s₂ hClosed hBehind
      cases closed with
      | true =>
          rcases hClosed with rfl
          refine .ok hBehind
            ⟨[j], [v], ?_, .cons hDenotes .nil, Array.toList_push⟩
          rw [Json.itemTokens, Json.itemTokens, List.append_nil]
      | false =>
          rcases hClosed with ⟨rfl, hMore, _⟩
          have hPos := j.tokens_length_pos
          rw [List.length_append] at hParts
          have hLater := hShort.suffix (List.suffix_append _ _)
          refine (ih hLater hMore (by omega) (done.push v)
            hBehind).weaken ?_ ?_
          · rintro all last ⟨items, trees, rfl, hTrees, hAll⟩
            refine ⟨j :: items, v :: trees, ?_,
              .cons hDenotes hTrees, ?_⟩
            · rw [Json.itemTokens, List.append_assoc]
            · rw [hAll, Array.toList_push, List.append_assoc,
                List.singleton_append]
          · rintro told ⟨path, hBegin⟩
            rw [Array.size_push] at hBegin
            exact ⟨path, hBegin.cons hDenotes⟩

end

------------------------------------------------------------
-- Nodes and Lists
------------------------------------------------------------

section

variable {d : Shape → Reading (Stream μ) Tree}
variable {size parts : Nat}
variable {s : Stream μ} {ts : List Token} {e : DecodeError}

theorem category_ne_other
    {t : NodeType}
    {tag : String}
    (hTag : t.category.tag? = some tag) :
    t.category ≠ .other := by
  intro hOther
  rw [hOther] at hTag
  cases hTag

/- The members and the end of a node that has been opened. -/
theorem NodeStart.valueAt
    {shape : Shape}
    {start rest : List Token}
    {t : NodeType}
    {members : List (String × Json)}
    {values : List (String × Tree)}
    {slots : List (Option Tree)}
    (hStart : NodeStart shape start t)
    (hMembers : t.category = .other → members ≠ [])
    (hValues : MembersDenote t members values)
    (hSlots : List.Forall₂ (SlotHolds values) t.fields slots) :
    ValueAt shape
      (start ++ (Json.memberTokens members ++ .objectClose :: rest))
      (.node t slots) rest := by
  cases hStart with
  | plain hOther =>
      exact ⟨.object members, by simp [Json.tokens],
        .node hOther (hMembers hOther) hValues hSlots⟩
  | @tagged _ tag hTag =>
      exact ⟨.object ((tag, .string t.name) :: members),
        by simp [Json.tokens, Json.memberTokens, Json.string],
        .tagged hTag hValues hSlots⟩
  | @variant _ sum hSum =>
      exact ⟨.object ((sum.tag, .string t.name) :: members),
        by simp [Json.tokens, Json.memberTokens, Json.string],
        .variant hSum hValues hSlots⟩

/- The fields of a node that has been opened. -/
theorem broken_nodeFields
    {shape : Shape}
    {start : List Token}
    {t : NodeType}
    (hStart : NodeStart shape start t)
    (hOpen :
      t.category = .other →
        ∀ u more, ts = u :: more → u ≠ .objectClose)
    (hBreaks : Breaks e size d)
    (hShort : Short size ts)
    (hSize : size < parts)
    (h : s.FailsAfter ts e) :
    Broken e (ValueAt shape (start ++ ts))
      (ToldIn shape (start ++ ts)) (readFields t d parts s) := by
  have hParts := Nat.lt_trans hShort.length hSize
  refine (broken_readFields hBreaks hShort hParts h).weaken ?_ ?_
  · rintro v rest ⟨members, rfl, values, slots, hValues, hSlots, rfl⟩
    refine hStart.valueAt ?_ hValues hSlots
    rintro hOther rfl
    exact hOpen hOther _ _ rfl rfl
  · rintro told ⟨path, hBegin⟩
    exact ⟨path, hBegin.begins hStart⟩

theorem broken_readNode
    (t : NodeType)
    (hBreaks : Breaks e size d)
    (hSize : size < parts)
    (hShort : Short (size + 1) ts)
    (h : s.FailsAfter ts e) :
    Broken e (ValueAt (.node t) ts) (ToldIn (.node t) ts)
      (readNode t d parts s) := by
  unfold readNode
  refine (broken_expectMark .objectOpen h).bind ?_ ?_
  · rintro told ⟨rfl, rfl⟩
    exact ⟨[], .first⟩
  rintro - ts s₁ rfl hOpened
  have hInner := hShort.tail
  refine (broken_closes .objectClose hOpened).bind ?_ ?_
  · rintro told ⟨rfl, rfl⟩
    cases hTag : t.category.tag? with
    | none =>
        exact ⟨[], .members
          (.plain (NodeType.category_eq_other_iff.mp hTag)) .nil⟩
    | some tag => exact ⟨[], .tag (.node hTag (.inl rfl))⟩
  intro empty rest s₂ hClosed hRest
  cases hTag : t.category.tag? with
  | none =>
      have hOther := NodeType.category_eq_other_iff.mp hTag
      cases empty with
      | true =>
          rcases hClosed with rfl
          exact .ok hRest ⟨.object [], rfl, .zero hOther⟩
      | false =>
          rcases hClosed with ⟨rfl, _, hOpen⟩
          exact broken_nodeFields (.plain hOther) (fun _ => hOpen)
            hBreaks hInner hSize hRest
  | some tag =>
      cases empty with
      | true => exact .wrong trivial
      | false =>
          rcases hClosed with ⟨rfl, _, _⟩
          refine (broken_expectVariant tag t hRest).bind ?_ ?_
          · rintro told ⟨hTokens, rfl⟩
            exact ⟨[], .tag (.node hTag hTokens)⟩
          rintro - last s₃ rfl hLast
          exact broken_nodeFields (.tagged hTag)
            (fun hOther => absurd hOther (category_ne_other hTag))
            hBreaks
            (hInner.suffix ⟨[_, _], rfl⟩) hSize hLast

theorem broken_readSum
    (sum : NodeSum)
    (hBreaks : Breaks e size d)
    (hSize : size < parts)
    (hShort : Short (size + 1) ts)
    (h : s.FailsAfter ts e) :
    Broken e (ValueAt (.sum sum) ts) (ToldIn (.sum sum) ts)
      (readSum sum d parts s) := by
  unfold readSum
  refine (broken_expectMark .objectOpen h).bind ?_ ?_
  · rintro told ⟨rfl, rfl⟩
    exact ⟨[], .first⟩
  rintro - ts s₁ rfl hOpened
  have hInner := hShort.tail
  refine (broken_closes .objectClose hOpened).bind ?_ ?_
  · rintro told ⟨rfl, rfl⟩
    exact ⟨[], .tag (.sum (.inl rfl))⟩
  intro empty rest s₂ hClosed hRest
  cases empty with
  | true => exact .wrong trivial
  | false =>
      rcases hClosed with ⟨rfl, _, _⟩
      refine (broken_readTag sum.tag hRest).bind ?_ ?_
      · rintro told ⟨hTokens, rfl⟩
        exact ⟨[], .tag (.sum hTokens)⟩
      rintro name last s₃ rfl hLast
      cases hVariant : sum.variant? name with
      | none => exact .wrong trivial
      | some t =>
          rcases NodeSum.variant?_eq_some_iff.mp hVariant with
            ⟨hSum, rfl⟩
          have hTag := NodeSum.tag?_of_category hSum
          exact broken_nodeFields (.variant hSum)
            (fun hOther => absurd hOther (category_ne_other hTag))
            hBreaks
            (hInner.suffix ⟨[_, _], rfl⟩) hSize hLast

theorem broken_readList
    (elem : Shape)
    (hBreaks : Breaks e size d)
    (hSize : size < parts)
    (hShort : Short (size + 1) ts)
    (h : s.FailsAfter ts e) :
    Broken e (ValueAt (.list elem) ts) (ToldIn (.list elem) ts)
      (readList (d elem) parts s) := by
  unfold readList
  refine (broken_expectMark .arrayOpen h).bind ?_ ?_
  · rintro told ⟨rfl, rfl⟩
    exact ⟨[], .first⟩
  rintro - ts s₁ rfl hOpened
  have hInner := hShort.tail
  have hEnough := Nat.lt_trans hInner.length hSize
  refine (broken_closes .arrayClose hOpened).bind ?_ ?_
  · rintro told ⟨rfl, rfl⟩
    exact ⟨[], .items .nil⟩
  intro empty rest s₂ hClosed hRest
  cases empty with
  | true =>
      rcases hClosed with rfl
      exact .ok hRest ⟨.array [], rfl, .list .nil⟩
  | false =>
      rcases hClosed with ⟨rfl, hSome, _⟩
      refine (broken_readItems hBreaks hInner hSome hEnough #[]
        hRest).bind ?_ ?_
      · rintro told ⟨path, hBegin⟩
        exact ⟨path, hBegin.begins⟩
      rintro all last s₃ ⟨items, trees, rfl, hTrees, hAll⟩ hLast
      refine .ok hLast ⟨.array items, by simp [Json.tokens], ?_⟩
      rw [hAll]
      exact .list hTrees

end

------------------------------------------------------------
-- Whole Values
------------------------------------------------------------

/-
  A decoder with more levels and parts than there are tokens gives
  a value or comes to the failure in one.  The induction is on the
  levels: what is in a container has fewer tokens than it.
-/
theorem decodeWithin_breaks
    (e : DecodeError)
    (parts : Nat) :
    ∀ levels, levels ≤ parts →
      Breaks e levels (decodeWithin parts levels (σ := Stream μ)) := by
  intro levels
  induction levels with
  | zero =>
      intro _ shape s ts hShort
      exact absurd hShort.length (Nat.not_lt_zero _)
  | succ levels ih =>
      intro hParts shape s ts hShort h
      have hBreaks := ih (Nat.le_of_succ_le hParts)
      cases shape with
      | scalar type =>
          rw [decodeWithin]
          refine (broken_nextValue h).bind ?_ ?_
          · rintro told ⟨rfl, rfl⟩
            exact ⟨[], .first⟩
          · rintro token rest s₁ rfl hRest
            exact broken_ofToken hRest
      | node t =>
          rw [decodeWithin]
          exact broken_readNode t hBreaks hParts hShort h
      | sum sum =>
          rw [decodeWithin]
          exact broken_readSum sum hBreaks hParts hShort h
      | list elem =>
          rw [decodeWithin]
          exact broken_readList elem hBreaks hParts hShort h

------------------------------------------------------------
-- Failures of a Source
------------------------------------------------------------

/- An error of the input is no error of the value. -/
theorem DecodeError.OfInput.not_ofValue
    {e : DecodeError}
    (h : e.OfInput) :
    ¬ e.cause.OfValue := by
  cases h <;> exact id

theorem DecodeError.OfInput.path_eq_nil
    {e : DecodeError}
    (h : e.OfInput) :
    e.path = [] := by
  cases h <;> rfl

/- Behind a value the failure comes next, or a token too many. -/
theorem broken_finish
    {s : Stream μ}
    {rest : List Token}
    {e : DecodeError}
    (hEof : .eof ∉ rest)
    (h : s.FailsAfter rest e) :
    Broken e (fun _ _ => False) (AtFailure rest) (finish s) := by
  unfold finish
  refine (broken_nextToken h).bind (fun _ h => h) ?_
  rintro t later s₁ rfl hLater
  have hNotLast : t ≠ .eof := by
    rintro rfl
    exact hEof List.mem_cons_self
  rw [if_neg hNotLast]
  exact .wrong trivial

section

variable [LawfulMachine μ]
variable {s : Stream μ} {ts : List Token} {e : DecodeError}

/- The levels and parts of a decoder are enough for all tokens. -/
theorem length_lt_enough
    (hEof : .eof ∉ ts)
    (h : s.FailsAfter ts e) :
    ts.length < TokenSource.bound s + 1 := by
  rcases h with ⟨s₁, s₂, hDelivers, _⟩
  have hLeft := hDelivers.length_le_left hEof
  have hBound : s.left ≤ TokenSource.bound s := s.left_le_bound
  omega

/- No document is decoded; the source fails in a value or behind it. -/
theorem decodeDocument_breaks
    (shape : Shape)
    (hEof : .eof ∉ ts)
    (h : s.FailsAfter ts e) :
    Broken e (fun _ _ => False)
      (fun told =>
        ToldIn shape ts told ∨
          ∃ j v, ts = j.tokens ∧ Denotes shape j v ∧ told = [])
      (decodeDocument shape s) := by
  unfold decodeDocument
  have hDecode :
      Broken e (ValueAt shape ts) (ToldIn shape ts)
        (decode shape s) :=
    decodeWithin_breaks e _ _ (Nat.le_refl _) shape
      ⟨hEof, length_lt_enough hEof h⟩ h
  refine hDecode.bind (fun _ hTold => .inl hTold) ?_
  rintro v rest s₁ ⟨j, rfl, hDenotes⟩ hRest
  have hLast : .eof ∉ rest :=
    fun hMem => hEof (List.mem_append_right _ hMem)
  refine (broken_finish hLast hRest).bind ?_ ?_
  · rintro told ⟨rfl, rfl⟩
    exact .inr ⟨j, v, List.append_nil _, hDenotes, rfl⟩
  · intro _ _ _ hNever
    exact hNever.elim

/- The source fails in a value. -/
theorem decodeDocument_begins
    {shape : Shape}
    {path told : List Hop}
    (hBegins : Begins shape ts path told)
    (hEof : .eof ∉ ts)
    (h : s.FailsAfter ts e) :
    (decodeDocument shape s).1 =
      .error ⟨e.cause, told ++ e.path⟩ := by
  have hEnough := length_lt_enough hEof h
  unfold decodeDocument
  apply fst_bind_error
  unfold decode
  exact decodeWithin_begins hBegins (Nat.le_of_lt_succ hEnough)
    hEnough h

/- The source fails behind the value. -/
theorem decodeDocument_complete
    {shape : Shape}
    {j : Json}
    {v : Tree}
    (hDenotes : Denotes shape j v)
    (h : s.FailsAfter j.tokens e) :
    (decodeDocument shape s).1 = .error e := by
  rcases h with ⟨s₁, s₂, hDelivers, hNext⟩
  have hDecode : decode shape s = (.ok v, s₁) :=
    (decode_eq_ok_iff shape hDelivers).mpr ⟨hDenotes, rfl⟩
  unfold decodeDocument
  rw [Action.bind_ok hDecode]
  apply fst_bind_error
  unfold finish
  rw [nextToken_bind_error hNext]

/-
  The source delivers some tokens and fails.  Decoding has its
  error exactly when the tokens have begun a value, with the hops
  told there, or make up a value, with no hops.  The hops told are
  all those that lead to the failure, or all but the last one: a
  node with a literal among its fields reads the first token of
  the value of a member without a hop.
-/
theorem decode_source_failure
    (shape : Shape)
    (hEof : .eof ∉ ts)
    (hInput : e.OfInput)
    (h : s.FailsAfter ts e) :
    (∀ e',
      (decodeDocument shape s).1 = .error e' ∧ ¬ e'.cause.OfValue ↔
        (∃ path told,
          Begins shape ts path told ∧ e' = ⟨e.cause, told⟩) ∨
        ∃ j v, ts = j.tokens ∧ Denotes shape j v ∧ e' = e) ∧
    ∀ path told,
      Begins shape ts path told →
        told = path ∨
          ∃ (t : NodeType) (key : String),
            [.key key] <:+ ts ∧ t.readsAhead = true ∧
              path = told ++ [.field t.name key] := by
  have hPath (told : List Hop) :
      (⟨e.cause, told ++ e.path⟩ : DecodeError) =
        ⟨e.cause, told⟩ := by
    rw [hInput.path_eq_nil, List.append_nil]
  refine ⟨fun e' => ⟨?_, ?_⟩, fun _ _ hBegins => hBegins.told_cases⟩
  · rintro ⟨hError, hCause⟩
    have hBroken := decodeDocument_breaks shape hEof h
    generalize decodeDocument shape s = out at hError hBroken
    cases hBroken with
    | ok _ hNever => exact hNever.elim
    | wrong hValue =>
        cases hError
        exact absurd hValue hCause
    | source told hTold =>
        cases hError
        rcases hTold with
          ⟨path, hBegins⟩ | ⟨j, v, hTokens, hDenotes, rfl⟩
        · exact .inl ⟨path, told, hBegins, hPath told⟩
        · exact .inr ⟨j, v, hTokens, hDenotes, rfl⟩
  · rintro (⟨path, told, hBegins, rfl⟩ | ⟨j, v, rfl, hDenotes, rfl⟩)
    · rw [decodeDocument_begins hBegins hEof h, hPath]
      exact ⟨rfl, hInput.not_ofValue⟩
    · exact ⟨decodeDocument_complete hDenotes h, hInput.not_ofValue⟩

end

/- A unary expression whose operand is beyond a limit of one. -/
def negatedName : Json :=
  .object
    [("expression_name", .string "UnaryExpr"),
     ("operand", .object
       [("expression_name", .string "Ident"),
        ("name", .string "x")])]

/- The tokens of it that are within the limit. -/
def negatedNameTokens : List Token :=
  [.objectOpen, .key "expression_name",
   .literal ⟨.string, "UnaryExpr"⟩, .key "operand"]

/-
  A unary expression has its operator among its fields, so it reads
  ahead, and the failure in place of its operand has no hop.
-/
theorem negatedName_operand_untold :
    .eof ∉ negatedNameTokens ∧
    (.here (.malformed (depthMessage 1) none) :
      DecodeError).OfInput ∧
    (ValueWalk.stream negatedName 1).FailsAfter negatedNameTokens
      (.here (.malformed (depthMessage 1) none)) ∧
    Begins (.sum .expr) negatedNameTokens
      [.field "UnaryExpr" "operand"] [] ∧
    (decodeDocument (.sum .expr)
        (ValueWalk.stream negatedName 1)).1 =
      .error (.here (.malformed (depthMessage 1) none)) := by
  have hEof : .eof ∉ negatedNameTokens := by decide
  have hInput :
      (.here (.malformed (depthMessage 1) none) :
        DecodeError).OfInput :=
    .malformed _ _
  have hFails :
      (ValueWalk.stream negatedName 1).FailsAfter negatedNameTokens
        (.here (.malformed (depthMessage 1) none)) :=
    ⟨_, _, .cons rfl (.cons rfl (.cons rfl (.cons rfl (.nil _)))),
      rfl⟩
  have hField :
      NodeType.unaryExpr.field? "operand" =
        some (.required "operand" (.sum .expr)) :=
    rfl
  have hBegins :
      Begins (.sum .expr) negatedNameTokens
        [.field "UnaryExpr" "operand"] [] :=
    .value (t := .unaryExpr) (.variant rfl) .nil hField
  have hErrors :=
    (decode_source_failure (.sum .expr) hEof hInput hFails).1
  exact ⟨hEof, hInput, hFails, hBegins,
    ((hErrors _).mpr (.inl ⟨_, _, hBegins, rfl⟩)).1⟩

end TreeWire
