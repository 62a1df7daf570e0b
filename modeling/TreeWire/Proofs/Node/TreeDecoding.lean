import TreeWire.Proofs.Json.Tokens
import TreeWire.Proofs.Source.Readings

/-
  Decoding by recursion on a document instead of its tokens.

  `Json.decodeAs` follows the tree of a document where the
  decoder follows its tokens.  On a stream that delivers the
  tokens of a document the two agree: they fail alike, and the
  decoder stops right behind the last token of the document.

  Main statements:
    * `decodeWithin_follows`
    * `decode_tokens`
-/

namespace TreeWire

------------------------------------------------------------
-- Decoding a Tree
------------------------------------------------------------

namespace Json

/- The first token of a document. -/
def head : Json → Token
  | .literal lit => .literal lit
  | .array _ => .arrayOpen
  | .object _ => .objectOpen

/- The node type that a tag has to name. -/
def chooseNode
    (t : NodeType)
    (found : String) : Except DecodeError NodeType :=
  if found = t.name then .ok t
  else .error (.here (.wrongVariant t.name found))

/- The node type in a sum that a tag names. -/
def chooseVariant
    (sum : NodeSum)
    (found : String) : Except DecodeError NodeType :=
  match sum.variant? found with
  | some t => .ok t
  | none => .error (.here (.unknownVariant sum.name found))

mutual

/- The tree that a document stands for as a value of a shape. -/
def decodeAs : Json → Shape → Except DecodeError Tree
  | .literal lit, .scalar type =>
      type.ofToken (.literal lit)
  | .literal lit, .list _ =>
      .error (Token.wrongShape "array" (.literal lit))
  | .literal lit, _ =>
      .error (Token.wrongShape "object" (.literal lit))
  | .array _, .scalar type =>
      type.ofToken .arrayOpen
  | .array items, .list elem =>
      (decodeItems items elem 0).map .list
  | .array _, _ =>
      .error (Token.wrongShape "object" .arrayOpen)
  | .object _, .scalar type =>
      type.ofToken .objectOpen
  | .object _, .list _ =>
      .error (Token.wrongShape "array" .objectOpen)
  | .object members, .node t =>
      match t.category.tag? with
      | none =>
          if members.isEmpty then
            .ok t.zero
          else
            decodeMembers members t [] >>= t.ofMembers
      | some tag =>
          if members.isEmpty then
            .error (.here (.emptyObject t.name))
          else
            decodeTagged members tag (chooseNode t)
  | .object members, .sum sum =>
      if members.isEmpty then
        .error (.here (.emptyObject sum.name))
      else
        decodeTagged members sum.tag (chooseVariant sum)

/- The trees of elements, the first of which has index `i`. -/
def decodeItems :
    List Json → Shape → Nat → Except DecodeError (List Tree)
  | [], _, _ =>
      .ok []
  | item :: items, elem, i => do
      let first ←
        (item.decodeAs elem).mapError (·.atIndex i)
      let rest ← decodeItems items elem (i + 1)
      pure (first :: rest)

/- The trees of members, put in front of those before them. -/
def decodeMembers :
    List (String × Json) →
    NodeType →
    List (String × Tree) →
    Except DecodeError (List (String × Tree))
  | [], _, done =>
      .ok done
  | (key, value) :: members, t, done =>
      match t.field? key with
      | none =>
          .error (.here (.unexpectedKey key t.name))
      | some f => do
          let tree ←
            (value.decodeAs f.shape).mapError
              (·.within t.name key)
          decodeMembers members t ((key, tree) :: done)

/- The node whose type the first of its members names. -/
def decodeTagged :
    List (String × Json) →
    String →
    (String → Except DecodeError NodeType) →
    Except DecodeError Tree
  | [], tag, _ =>
      .error (.here (.misplacedTag tag ""))
  | (key, value) :: members, tag, choose =>
      if key = tag then do
        let found ← value.head.readString
        let t ← choose found
        decodeMembers members t [] >>= t.ofMembers
      else
        .error (.here
          (.misplacedTag tag ("key \"" ++ key ++ "\"")))

end

end Json

------------------------------------------------------------
-- First Tokens
------------------------------------------------------------

namespace Json

theorem tokens_eq_head_cons
    (j : Json) :
    ∃ ts, j.tokens = j.head :: ts := by
  cases j with
  | literal lit => exact ⟨[], by rw [tokens, head]⟩
  | array items => exact ⟨_, by rw [tokens, head]⟩
  | object members => exact ⟨_, by rw [tokens, head]⟩

theorem head_startsValue
    (j : Json) :
    j.head.startsValue = true := by
  cases j <;> rfl

theorem head_ne_of_startsValue
    (j : Json)
    {t : Token}
    (h : t.startsValue = false) :
    j.head ≠ t := by
  intro hEq
  have := j.head_startsValue
  rw [hEq, h] at this
  cases this

/- A literal is decoded from the first token. -/
theorem decodeAs_scalar
    (j : Json)
    (type : ScalarType) :
    j.decodeAs (.scalar type) = type.ofToken j.head := by
  cases j <;> simp [decodeAs, head]

theorem decodeAs_node_of_head
    {j : Json}
    (t : NodeType)
    (h : j.head ≠ .objectOpen) :
    j.decodeAs (.node t) =
      .error (Token.wrongShape "object" j.head) := by
  cases j with
  | literal lit => simp [decodeAs, head]
  | array items => simp [decodeAs, head]
  | object members => exact absurd rfl h

theorem decodeAs_sum_of_head
    {j : Json}
    (sum : NodeSum)
    (h : j.head ≠ .objectOpen) :
    j.decodeAs (.sum sum) =
      .error (Token.wrongShape "object" j.head) := by
  cases j with
  | literal lit => simp [decodeAs, head]
  | array items => simp [decodeAs, head]
  | object members => exact absurd rfl h

theorem decodeAs_list_of_head
    {j : Json}
    (elem : Shape)
    (h : j.head ≠ .arrayOpen) :
    j.decodeAs (.list elem) =
      .error (Token.wrongShape "array" j.head) := by
  cases j with
  | literal lit => simp [decodeAs, head]
  | array items => exact absurd rfl h
  | object members => simp [decodeAs, head]

end Json

/- Only a literal has a value of a scalar type. -/
theorem ScalarType.ofToken_of_ok
    {type : ScalarType}
    {token : Token}
    {v : Tree}
    (h : type.ofToken token = .ok v) :
    ∃ lit, token = .literal lit := by
  cases token with
  | literal lit => exact ⟨lit, rfl⟩
  | _ =>
      cases type <;>
        simp [ofToken, Token.readString, Token.readInt,
          Token.readFloat, Token.readBool, Token.literalText,
          Except.map] at h

------------------------------------------------------------
-- Results of Readings
------------------------------------------------------------

/-
  A reading has a result, and ends in a given state if it
  succeeds.
-/
def Gives
    {α σ : Type}
    (out : Except DecodeError α × σ)
    (result : Except DecodeError α)
    (after : σ) : Prop :=
  out.1 = result ∧ ∀ a, result = .ok a → out.2 = after

namespace Gives

variable {α β σ : Type}
variable {s s₁ s₂ : σ}

theorem ok
    {out : Except DecodeError α × σ}
    {a : α}
    (h : out = (.ok a, s₁)) :
    Gives out (.ok a) s₁ := by
  subst h
  exact ⟨rfl, fun _ _ => rfl⟩

theorem error
    {out : Except DecodeError α × σ}
    {e : DecodeError}
    (h : out.1 = .error e) :
    Gives out (.error e) s₁ :=
  ⟨h, fun _ hOk => nomatch hOk⟩

theorem eq_of_ok
    {out : Except DecodeError α × σ}
    {a : α}
    (h : Gives out (.ok a) s₁) :
    out = (.ok a, s₁) :=
  Prod.ext h.1 (h.2 a rfl)

theorem exists_of_error
    {out : Except DecodeError α × σ}
    {e : DecodeError}
    (h : Gives out (.error e) s₁) :
    ∃ s', out = (.error e, s') :=
  ⟨out.2, Prod.ext h.1 rfl⟩

theorem bind
    {x : Reading σ α}
    {f : α → Reading σ β}
    {r : Except DecodeError α}
    {g : α → Except DecodeError β}
    (hx : Gives (x s) r s₁)
    (hf : ∀ a, r = .ok a → Gives (f a s₁) (g a) s₂) :
    Gives ((x >>= f) s) (r >>= g) s₂ := by
  cases r with
  | ok a =>
      rw [Action.bind_ok hx.eq_of_ok]
      exact hf a rfl
  | error e =>
      rcases hx.exists_of_error with ⟨s', hError⟩
      rw [Action.bind_error hError]
      exact .error rfl

theorem map
    {x : Reading σ α}
    {r : Except DecodeError α}
    (F : α → β)
    (hx : Gives (x s) r s₁) :
    Gives ((x >>= fun a => pure (F a)) s) (r.map F) s₁ := by
  cases r with
  | ok a =>
      rw [Action.bind_ok hx.eq_of_ok]
      exact .ok rfl
  | error e =>
      rcases hx.exists_of_error with ⟨s', hError⟩
      rw [Action.bind_error hError]
      exact .error rfl

theorem mapError
    {x : Reading σ α}
    {r : Except DecodeError α}
    (f : DecodeError → DecodeError)
    (hx : Gives (x s) r s₁) :
    Gives (Reading.mapError f x s) (r.mapError f) s₁ := by
  cases r with
  | ok a =>
      rw [Reading.mapError_ok hx.eq_of_ok]
      exact .ok rfl
  | error e =>
      rcases hx.exists_of_error with ⟨s', hError⟩
      rw [Reading.mapError_error hError]
      exact .error rfl

theorem ofExcept
    (r : Except DecodeError α) :
    Gives ((Reading.ofExcept r : Reading σ α) s) r s :=
  ⟨rfl, fun _ _ => rfl⟩

end Gives

------------------------------------------------------------
-- Members and Elements
------------------------------------------------------------

variable {μ : Type} [TokenMachine μ]

/-
  A decoder of values follows a document when, on the tokens of
  the document, it does what recursion on the document does.
-/
def Follows
    (decodeValue : Shape → Reading (Stream μ) Tree)
    (j : Json) : Prop :=
  ∀ (shape : Shape) (s s' : Stream μ),
    s.Delivers j.tokens s' →
    Gives (decodeValue shape s) (j.decodeAs shape) s'

/- The tree of a member, if its key names a field. -/
def Json.decodeMember
    (t : NodeType)
    (key : String)
    (value : Json) : Except DecodeError Tree :=
  match t.field? key with
  | none =>
      .error (.here (.unexpectedKey key t.name))
  | some f =>
      (value.decodeAs f.shape).mapError (·.within t.name key)

theorem Json.decodeMembers_cons
    (key : String)
    (value : Json)
    (members : List (String × Json))
    (t : NodeType)
    (done : List (String × Tree)) :
    decodeMembers ((key, value) :: members) t done =
      (decodeMember t key value >>= fun tree =>
        decodeMembers members t ((key, tree) :: done)) := by
  rw [decodeMembers, decodeMember]
  cases t.field? key with
  | none => rfl
  | some f => rfl

/-
  A scalar field read ahead: the token is the first one of the
  document, and no other is read if it is a literal.
-/
theorem gives_scalar_ahead
    {type : ScalarType}
    {j : Json}
    {s s₁ s' : Stream μ}
    (hNext : s.next = (.ok j.head, s₁))
    (h : s.Delivers j.tokens s') :
    Gives
      ((Reading.ofExcept (type.ofToken j.head) :
        Reading (Stream μ) Tree) s₁)
      (j.decodeAs (.scalar type)) s' := by
  rw [Json.decodeAs_scalar]
  refine ⟨rfl, fun v hOk => ?_⟩
  rcases ScalarType.ofToken_of_ok hOk with ⟨lit, hLit⟩
  cases j with
  | literal lit' =>
      rw [Json.tokens, Stream.Delivers.singleton_iff] at h
      rw [Json.head] at hNext
      rw [h] at hNext
      cases hNext
      rfl
  | array items => cases hLit
  | object members => cases hLit

theorem readMember_tokens
    {decodeValue : Shape → Reading (Stream μ) Tree}
    {j : Json}
    {s s' : Stream μ}
    (t : NodeType)
    (key : String)
    (hValue : Follows decodeValue j)
    (h : s.Delivers j.tokens s') :
    Gives (readMember t decodeValue key s)
      (j.decodeMember t key) s' := by
  unfold readMember Json.decodeMember
  split
  · rcases j.tokens_eq_head_cons with ⟨ts, hTokens⟩
    have hHead := h
    rw [hTokens] at hHead
    rcases Stream.Delivers.cons_iff.mp hHead with
      ⟨s₁, hNext, hRest⟩
    rw [Action.bind_ok
      (nextValue_starts hNext j.head_startsValue)]
    cases hField : t.field? key with
    | none => exact .error rfl
    | some f =>
        have hHeld : (s₁.hold j.head).Delivers j.tokens s' := by
          rw [hTokens]
          exact .hold hNext hRest
        apply Gives.mapError
        cases f.shape with
        | scalar type => exact gives_scalar_ahead hNext h
        | _ => exact hValue _ _ s' hHeld
  · cases hField : t.field? key with
    | none => exact .error rfl
    | some f => exact .mapError _ (hValue f.shape s s' h)

theorem readMembers_tokens
    {decodeValue : Shape → Reading (Stream μ) Tree}
    (t : NodeType)
    (members : List (String × Json))
    (hValue : ∀ m ∈ members, Follows decodeValue m.2)
    {parts : Nat}
    {done : List (String × Tree)}
    {s s' : Stream μ}
    (hParts : members.length < parts)
    (h : s.Delivers
      (Json.memberTokens members ++ [.objectClose]) s') :
    Gives (readMembers t decodeValue parts done s)
      (Json.decodeMembers members t done) s' := by
  induction members generalizing parts done s with
  | nil =>
      cases parts with
      | zero => cases hParts
      | succ parts =>
          rw [Json.memberTokens, List.nil_append,
            Stream.Delivers.singleton_iff] at h
          unfold readMembers
          rw [Action.bind_ok (nextKey_close h)]
          rw [Json.decodeMembers]
          exact .ok rfl
  | cons m members ih =>
      rcases m with ⟨key, value⟩
      cases parts with
      | zero => cases hParts
      | succ parts =>
          rw [Json.memberTokens, List.cons_append,
            List.append_assoc] at h
          rcases Stream.Delivers.cons_iff.mp h with
            ⟨s₁, hNext, hRest⟩
          rcases Stream.Delivers.append_iff.mp hRest with
            ⟨s₂, hMember, hMembers⟩
          unfold readMembers
          rw [Action.bind_ok (nextKey_key hNext),
            Json.decodeMembers_cons]
          apply Gives.bind
            (readMember_tokens t key
              (hValue (key, value) (by simp)) hMember)
          intro tree _
          apply ih
          · intro m hMem
            exact hValue m (List.mem_cons_of_mem _ hMem)
          · simpa using hParts
          · exact hMembers

theorem readFields_tokens
    {decodeValue : Shape → Reading (Stream μ) Tree}
    (t : NodeType)
    {members : List (String × Json)}
    (hValue : ∀ m ∈ members, Follows decodeValue m.2)
    {parts : Nat}
    {s s' : Stream μ}
    (hParts : members.length < parts)
    (h : s.Delivers
      (Json.memberTokens members ++ [.objectClose]) s') :
    Gives (readFields t decodeValue parts s)
      (Json.decodeMembers members t [] >>= t.ofMembers) s' := by
  unfold readFields
  apply Gives.bind (readMembers_tokens t members hValue hParts h)
  intro done _
  exact .ofExcept _

/- Elements are decoded one after the other. -/
theorem Json.map_decodeItems_cons
    {α : Type}
    (F : List Tree → α)
    (item : Json)
    (items : List Json)
    (elem : Shape)
    (i : Nat) :
    (decodeItems (item :: items) elem i).map F =
      ((item.decodeAs elem).mapError (·.atIndex i) >>= fun first =>
        (decodeItems items elem (i + 1)).map
          fun rest => F (first :: rest)) := by
  rw [decodeItems]
  cases (item.decodeAs elem).mapError (·.atIndex i) with
  | error e => rfl
  | ok first =>
      change Except.map F
        (decodeItems items elem (i + 1) >>= _) = _
      cases decodeItems items elem (i + 1) <;> rfl

theorem readItems_tokens
    {decodeValue : Shape → Reading (Stream μ) Tree}
    (elem : Shape)
    (items : List Json)
    (hItems : items ≠ [])
    (hValue : ∀ item ∈ items, Follows decodeValue item)
    {parts : Nat}
    {done : Array Tree}
    {s s' : Stream μ}
    (hParts : items.length ≤ parts)
    (h : s.Delivers
      (Json.itemTokens items ++ [.arrayClose]) s') :
    Gives (readItems (decodeValue elem) parts done s)
      ((Json.decodeItems items elem done.size).map
        fun rest => done ++ rest.toArray) s' := by
  induction items generalizing parts done s with
  | nil => exact absurd rfl hItems
  | cons item items ih =>
      cases parts with
      | zero => cases hParts
      | succ parts =>
          rw [Json.itemTokens, List.append_assoc] at h
          rcases Stream.Delivers.append_iff.mp h with
            ⟨s₁, hItem, hRest⟩
          unfold readItems
          rw [Json.map_decodeItems_cons]
          apply Gives.bind (.mapError _
            (hValue item (by simp) elem s s₁ hItem))
          intro first _
          -- The list closes here, or a further element starts.
          cases items with
          | nil =>
              rw [Json.itemTokens, List.nil_append,
                Stream.Delivers.singleton_iff] at hRest
              rw [Action.bind_ok (closes_eq hRest),
                Json.decodeItems]
              exact .ok (by simp)
          | cons second items =>
              rcases second.tokens_eq_head_cons with ⟨ts, hTokens⟩
              rw [Json.itemTokens, hTokens, List.cons_append,
                List.cons_append] at hRest
              rcases Stream.Delivers.cons_iff.mp hRest with
                ⟨s₂, hNext, hTail⟩
              rw [Action.bind_ok (closes_ne hNext
                (second.head_ne_of_startsValue rfl))]
              have hHeld :
                  (s₂.hold second.head).Delivers
                    (Json.itemTokens (second :: items)
                      ++ [.arrayClose]) s' := by
                rw [Json.itemTokens, hTokens, List.cons_append,
                  List.cons_append]
                exact .hold hNext hTail
              have hMore :
                  Gives
                    (readItems (decodeValue elem) parts
                      (done.push first) (s₂.hold second.head))
                    ((Json.decodeItems (second :: items) elem
                      (done.push first).size).map fun rest =>
                        done.push first ++ rest.toArray) s' := by
                apply ih (by simp)
                · intro x hx
                  exact hValue x (List.mem_cons_of_mem _ hx)
                · simpa using hParts
                · exact hHeld
              simpa using hMore

------------------------------------------------------------
-- Values
------------------------------------------------------------

theorem readTag_tokens
    (tag : String)
    {key : String}
    {value : Json}
    {ts : List Token}
    {s s' : Stream μ}
    (h : s.Delivers (.key key :: (value.tokens ++ ts)) s') :
    (key ≠ tag ∧
      (readTag tag s).1 = .error (.here
        (.misplacedTag tag ("key \"" ++ key ++ "\"")))) ∨
    (key = tag ∧
      ∃ s₁, readTag tag s = (value.head.readString, s₁) ∧
        ∀ name, value.head.readString = .ok name →
          s₁.Delivers ts s') := by
  rcases Stream.Delivers.cons_iff.mp h with ⟨s₁, hKey, hRest⟩
  by_cases hTag : key = tag
  · right
    subst hTag
    rcases value.tokens_eq_head_cons with ⟨us, hTokens⟩
    rw [hTokens, List.cons_append] at hRest
    rcases Stream.Delivers.cons_iff.mp hRest with
      ⟨s₂, hHead, hTail⟩
    refine ⟨rfl, s₂, ?_, ?_⟩
    · exact readTag_tag hKey
        (nextValue_starts hHead value.head_startsValue)
    · intro name hName
      cases value with
      | literal lit =>
          rw [Json.tokens, Json.head] at hTokens
          cases hTokens
          exact hTail
      | array items => cases hName
      | object members => cases hName
  · left
    exact ⟨hTag, by rw [readTag_key hKey hTag]⟩

/-
  An object that is not empty: neither mark closes it, and the
  look ahead leaves its members to be read.
-/
theorem closes_members
    {member : String × Json}
    {members : List (String × Json)}
    {s s' : Stream μ}
    (h : s.Delivers
      (Json.memberTokens (member :: members)
        ++ [.objectClose]) s') :
    ∃ s₁, closes .objectClose s = (.ok false, s₁) ∧
      s₁.Delivers
        (Json.memberTokens (member :: members)
          ++ [.objectClose]) s' := by
  rcases member with ⟨key, value⟩
  rw [Json.memberTokens, List.cons_append] at h ⊢
  rcases Stream.Delivers.cons_iff.mp h with ⟨s₁, hKey, hRest⟩
  exact ⟨s₁.hold (.key key), closes_ne hKey (by simp),
    .hold hKey hRest⟩

/- The tag, the choice of a node type, and its fields. -/
theorem readTagged_tokens
    {decodeValue : Shape → Reading (Stream μ) Tree}
    (choose : String → Except DecodeError NodeType)
    {pick : String → Reading (Stream μ) Tree}
    (tag : String)
    {members : List (String × Json)}
    (hMembers : members ≠ [])
    (hValue : ∀ m ∈ members, Follows decodeValue m.2)
    {parts : Nat}
    (hPick : ∀ (name : String) (s : Stream μ),
      pick name s =
        (Reading.ofExcept (choose name) >>= fun t =>
          readFields t decodeValue parts) s)
    {s s' : Stream μ}
    (hParts : members.length ≤ parts)
    (h : s.Delivers
      (Json.memberTokens members ++ [.objectClose]) s') :
    Gives ((readTag tag >>= pick) s)
      (Json.decodeTagged members tag choose) s' := by
  cases members with
  | nil => exact absurd rfl hMembers
  | cons m members =>
      rcases m with ⟨key, value⟩
      rw [Json.memberTokens, List.cons_append,
        List.append_assoc] at h
      rw [Json.decodeTagged]
      rcases readTag_tokens tag h with
        ⟨hTag, hError⟩ | ⟨rfl, s₁, hRead, hRest⟩
      · rw [if_neg hTag]
        apply Gives.error
        rw [Action.bind_error (Prod.ext hError rfl)]
      · rw [if_pos rfl]
        cases hName : value.head.readString with
        | error e =>
            apply Gives.error
            rw [hName] at hRead
            rw [Action.bind_error hRead]
        | ok name =>
            rw [hName] at hRead
            rw [Action.bind_ok hRead, hPick]
            apply Gives.bind (.ofExcept (choose name))
            intro t _
            apply readFields_tokens t
            · intro m hMem
              exact hValue m (List.mem_cons_of_mem _ hMem)
            · simp only [List.length_cons] at hParts
              omega
            · exact hRest name hName

theorem readNode_tokens
    {decodeValue : Shape → Reading (Stream μ) Tree}
    (t : NodeType)
    {members : List (String × Json)}
    (hValue : ∀ m ∈ members, Follows decodeValue m.2)
    {parts : Nat}
    {s s' : Stream μ}
    (hParts : members.length < parts)
    (h : s.Delivers (Json.object members).tokens s') :
    Gives (readNode t decodeValue parts s)
      ((Json.object members).decodeAs (.node t)) s' := by
  rw [Json.tokens] at h
  rcases Stream.Delivers.cons_iff.mp h with ⟨s₁, hOpen, hRest⟩
  unfold readNode
  rw [Action.bind_ok (expectMark_eq hOpen), Json.decodeAs]
  cases members with
  | nil =>
      rw [Json.memberTokens, List.nil_append,
        Stream.Delivers.singleton_iff] at hRest
      rw [Action.bind_ok (closes_eq hRest)]
      cases t.category.tag? with
      | none => exact .ok rfl
      | some tag => exact .error rfl
  | cons m members =>
      rcases closes_members hRest with ⟨s₂, hCloses, hMembers⟩
      rw [Action.bind_ok hCloses]
      cases t.category.tag? with
      | none => exact readFields_tokens t hValue hParts hMembers
      | some tag =>
          simp only [List.isEmpty_cons, Bool.false_eq_true,
            if_false]
          unfold expectVariant
          rw [bind_assoc]
          apply readTagged_tokens (Json.chooseNode t) tag (by simp)
            hValue _ (Nat.le_of_lt hParts) hMembers
          intro name s
          unfold Json.chooseNode
          split <;> rfl

theorem readSum_tokens
    {decodeValue : Shape → Reading (Stream μ) Tree}
    (sum : NodeSum)
    {members : List (String × Json)}
    (hValue : ∀ m ∈ members, Follows decodeValue m.2)
    {parts : Nat}
    {s s' : Stream μ}
    (hParts : members.length < parts)
    (h : s.Delivers (Json.object members).tokens s') :
    Gives (readSum sum decodeValue parts s)
      ((Json.object members).decodeAs (.sum sum)) s' := by
  rw [Json.tokens] at h
  rcases Stream.Delivers.cons_iff.mp h with ⟨s₁, hOpen, hRest⟩
  unfold readSum
  rw [Action.bind_ok (expectMark_eq hOpen), Json.decodeAs]
  cases members with
  | nil =>
      rw [Json.memberTokens, List.nil_append,
        Stream.Delivers.singleton_iff] at hRest
      rw [Action.bind_ok (closes_eq hRest)]
      exact .error rfl
  | cons m members =>
      rcases closes_members hRest with ⟨s₂, hCloses, hMembers⟩
      rw [Action.bind_ok hCloses]
      simp only [List.isEmpty_cons, Bool.false_eq_true, if_false]
      apply readTagged_tokens (Json.chooseVariant sum) sum.tag
        (by simp) hValue _ (Nat.le_of_lt hParts) hMembers
      intro name s
      unfold Json.chooseVariant
      cases sum.variant? name <;> rfl

theorem readList_tokens
    {decodeValue : Shape → Reading (Stream μ) Tree}
    (elem : Shape)
    {items : List Json}
    (hValue : ∀ item ∈ items, Follows decodeValue item)
    {parts : Nat}
    {s s' : Stream μ}
    (hParts : items.length ≤ parts)
    (h : s.Delivers (Json.array items).tokens s') :
    Gives (readList (decodeValue elem) parts s)
      ((Json.array items).decodeAs (.list elem)) s' := by
  rw [Json.tokens] at h
  rcases Stream.Delivers.cons_iff.mp h with ⟨s₁, hOpen, hRest⟩
  unfold readList
  rw [Action.bind_ok (expectMark_eq hOpen), Json.decodeAs]
  cases items with
  | nil =>
      rw [Json.itemTokens, List.nil_append,
        Stream.Delivers.singleton_iff] at hRest
      rw [Action.bind_ok (closes_eq hRest), Json.decodeItems]
      exact .ok rfl
  | cons item items =>
      rcases item.tokens_eq_head_cons with ⟨ts, hTokens⟩
      have hFirst := hRest
      rw [Json.itemTokens, hTokens, List.cons_append,
        List.cons_append] at hFirst
      rcases Stream.Delivers.cons_iff.mp hFirst with
        ⟨s₂, hNext, hTail⟩
      have hHeld :
          (s₂.hold item.head).Delivers
            (Json.itemTokens (item :: items)
              ++ [.arrayClose]) s' := by
        rw [Json.itemTokens, hTokens, List.cons_append,
          List.cons_append]
        exact .hold hNext hTail
      rw [Action.bind_ok (closes_ne hNext
        (item.head_ne_of_startsValue rfl))]
      have hItems :
          Gives
            (readItems (decodeValue elem) parts #[]
              (s₂.hold item.head))
            ((Json.decodeItems (item :: items) elem 0).map
              fun rest => #[] ++ rest.toArray) s' :=
        readItems_tokens elem (item :: items) (by simp) hValue
          hParts hHeld
      have hAll := hItems.map fun all => Tree.list all.toList
      cases hDecoded : Json.decodeItems (item :: items) elem 0 with
      | ok trees => simpa [hDecoded, Except.map] using hAll
      | error e => simpa [hDecoded, Except.map] using hAll

------------------------------------------------------------
-- Whole Documents
------------------------------------------------------------

theorem Json.tokens_length_le_of_mem_items
    {item : Json}
    {items : List Json}
    (h : item ∈ items) :
    item.tokens.length ≤ (itemTokens items).length := by
  induction items with
  | nil => cases h
  | cons first items ih =>
      rw [itemTokens, List.length_append]
      rcases List.mem_cons.mp h with rfl | hRest
      · omega
      · have := ih hRest
        omega

theorem Json.tokens_length_le_of_mem_members
    {m : String × Json}
    {members : List (String × Json)}
    (h : m ∈ members) :
    m.2.tokens.length ≤ (memberTokens members).length := by
  induction members with
  | nil => cases h
  | cons first members ih =>
      rcases first with ⟨key, value⟩
      rw [memberTokens, List.length_cons, List.length_append]
      rcases List.mem_cons.mp h with rfl | hRest
      · dsimp only
        omega
      · have := ih hRest
        omega

theorem Json.tokens_length_pos
    (j : Json) :
    0 < j.tokens.length := by
  rcases j.tokens_eq_head_cons with ⟨ts, hTokens⟩
  simp [hTokens]

theorem Json.length_le_itemTokens
    (items : List Json) :
    items.length ≤ (itemTokens items).length := by
  induction items with
  | nil => simp
  | cons item items ih =>
      have := item.tokens_length_pos
      rw [itemTokens, List.length_cons, List.length_append]
      omega

theorem Json.length_le_memberTokens
    (members : List (String × Json)) :
    members.length ≤ (memberTokens members).length := by
  induction members with
  | nil => simp
  | cons m members ih =>
      rcases m with ⟨key, value⟩
      rw [memberTokens, List.length_cons, List.length_cons,
        List.length_append]
      omega

theorem Json.eq_object_of_head
    {j : Json}
    (h : j.head = .objectOpen) :
    ∃ members, j = .object members := by
  cases j with
  | literal lit => cases h
  | array items => cases h
  | object members => exact ⟨members, rfl⟩

theorem Json.eq_array_of_head
    {j : Json}
    (h : j.head = .arrayOpen) :
    ∃ items, j = .array items := by
  cases j with
  | literal lit => cases h
  | array items => exact ⟨items, rfl⟩
  | object members => cases h

/- Enough levels and parts for an object are so for its members. -/
private theorem object_lengths
    {members : List (String × Json)}
    {parts levels : Nat}
    (hLevels : (Json.object members).tokens.length ≤ levels + 1)
    (hParts : (Json.object members).tokens.length ≤ parts) :
    members.length < parts ∧
      ∀ m ∈ members,
        m.2.tokens.length ≤ levels ∧
          m.2.tokens.length ≤ parts := by
  simp only [Json.tokens, List.length_cons,
    List.length_append] at hLevels hParts
  have hLength := Json.length_le_memberTokens members
  refine ⟨by omega, ?_⟩
  intro m hMem
  have hMember := Json.tokens_length_le_of_mem_members hMem
  constructor <;> omega

/- Enough levels and parts for a list are so for its elements. -/
private theorem array_lengths
    {items : List Json}
    {parts levels : Nat}
    (hLevels : (Json.array items).tokens.length ≤ levels + 1)
    (hParts : (Json.array items).tokens.length ≤ parts) :
    items.length ≤ parts ∧
      ∀ item ∈ items,
        item.tokens.length ≤ levels ∧
          item.tokens.length ≤ parts := by
  simp only [Json.tokens, List.length_cons,
    List.length_append] at hLevels hParts
  have hLength := Json.length_le_itemTokens items
  refine ⟨by omega, ?_⟩
  intro item hMem
  have hItem := Json.tokens_length_le_of_mem_items hMem
  constructor <;> omega

/-
  With as many levels and parts as a document has tokens, the
  decoder follows the document.  The induction is on levels:
  the parts of a container have fewer tokens than it.
-/
theorem decodeWithin_follows
    (parts levels : Nat)
    (j : Json)
    (hLevels : j.tokens.length ≤ levels)
    (hParts : j.tokens.length ≤ parts) :
    Follows (decodeWithin parts levels) j (μ := μ) := by
  induction levels generalizing j with
  | zero =>
      have := j.tokens_length_pos
      omega
  | succ levels ih =>
      intro shape s s' h
      rcases j.tokens_eq_head_cons with ⟨ts, hTokens⟩
      have hHead := h
      rw [hTokens] at hHead
      rcases Stream.Delivers.cons_iff.mp hHead with ⟨s₁, hNext, _⟩
      cases shape with
      | scalar type =>
          unfold decodeWithin
          rw [Action.bind_ok
            (nextValue_starts hNext j.head_startsValue)]
          exact gives_scalar_ahead hNext h
      | node t =>
          unfold decodeWithin
          by_cases hOpen : j.head = .objectOpen
          · rcases Json.eq_object_of_head hOpen with ⟨members, rfl⟩
            rcases object_lengths hLevels hParts with
              ⟨hLen, hMembers⟩
            apply readNode_tokens t _ hLen h
            intro m hMem
            exact ih m.2 (hMembers m hMem).1 (hMembers m hMem).2
          · rw [Json.decodeAs_node_of_head t hOpen]
            unfold readNode
            apply Gives.error
            rw [Action.bind_error (expectMark_ne hNext hOpen)]
            rfl
      | sum sum =>
          unfold decodeWithin
          by_cases hOpen : j.head = .objectOpen
          · rcases Json.eq_object_of_head hOpen with ⟨members, rfl⟩
            rcases object_lengths hLevels hParts with
              ⟨hLen, hMembers⟩
            apply readSum_tokens sum _ hLen h
            intro m hMem
            exact ih m.2 (hMembers m hMem).1 (hMembers m hMem).2
          · rw [Json.decodeAs_sum_of_head sum hOpen]
            unfold readSum
            apply Gives.error
            rw [Action.bind_error (expectMark_ne hNext hOpen)]
            rfl
      | list elem =>
          unfold decodeWithin
          by_cases hOpen : j.head = .arrayOpen
          · rcases Json.eq_array_of_head hOpen with ⟨items, rfl⟩
            rcases array_lengths hLevels hParts with
              ⟨hLen, hItems⟩
            apply readList_tokens elem _ hLen h
            intro item hMem
            exact ih item (hItems item hMem).1 (hItems item hMem).2
          · rw [Json.decodeAs_list_of_head elem hOpen]
            unfold readList
            apply Gives.error
            rw [Action.bind_error (expectMark_ne hNext hOpen)]
            rfl

/-
  On a stream that delivers the tokens of a document, decoding
  gives the tree of the document, or its error, and stops right
  behind the document.
-/
theorem decode_tokens
    [LawfulMachine μ]
    {j : Json}
    {s s' : Stream μ}
    (shape : Shape)
    (h : s.Delivers j.tokens s') :
    Gives (decode shape s) (j.decodeAs shape) s' := by
  have hLeft := h.length_le_left j.eof_not_mem_tokens
  have hBound := s.left_le_bound
  have hEnough : j.tokens.length ≤ s.bound + 1 := by
    omega
  exact decodeWithin_follows (s.bound + 1) (s.bound + 1) j hEnough
    hEnough shape s s' h

end TreeWire
