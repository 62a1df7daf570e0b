import TreeWire.Proofs.Node.Failures

/-
  Values that break off.

  `Begins shape ts path told` says that the tokens `ts` begin a
  value of `shape` and conform so far.  The hops of `path` lead to
  the value in which the next token stands: into every member
  whose key is read and whose value is not complete, and into
  every element that has begun.  `told` are those of these hops
  that an error has which comes in place of the next token.  The
  hop that is missing is that into the value of the last member,
  at the first token of the value, in a node that reads ahead.

  Where a stream breaks off in a value that has begun, decoding
  fails with that error and those hops.

  Key definitions include:
    * `Stream.FailsAfter`
    * `NodeStart`
    * `Begins`

  Main statements:
    * `Begins.told_cases`
    * `decodeWithin_begins`
-/

namespace TreeWire

------------------------------------------------------------
-- Streams That Break Off
------------------------------------------------------------

namespace Stream

variable {μ : Type} [TokenMachine μ]

/- A stream delivers tokens and then fails. -/
def FailsAfter
    (s : Stream μ)
    (ts : List Token)
    (e : DecodeError) : Prop :=
  ∃ s₁ s₂, s.Delivers ts s₁ ∧ s₁.next = (.error e, s₂)

namespace FailsAfter

variable {s s₁ : Stream μ}
variable {t : Token} {ts us : List Token}
variable {e : DecodeError}

theorem nil_iff :
    s.FailsAfter [] e ↔ ∃ s₁, s.next = (.error e, s₁) := by
  constructor
  · rintro ⟨s₁, s₂, hDelivers, hNext⟩
    cases hDelivers
    exact ⟨s₂, hNext⟩
  · rintro ⟨s₁, hNext⟩
    exact ⟨s, s₁, .nil s, hNext⟩

theorem cons_iff :
    s.FailsAfter (t :: ts) e ↔
      ∃ s₁, s.next = (.ok t, s₁) ∧ s₁.FailsAfter ts e := by
  constructor
  · rintro ⟨s₁, s₂, hDelivers, hNext⟩
    rcases Delivers.cons_iff.mp hDelivers with ⟨s₀, hFirst, hRest⟩
    exact ⟨s₀, hFirst, s₁, s₂, hRest, hNext⟩
  · rintro ⟨s₀, hFirst, s₁, s₂, hRest, hNext⟩
    exact ⟨s₁, s₂, .cons hFirst hRest, hNext⟩

theorem append_iff :
    s.FailsAfter (ts ++ us) e ↔
      ∃ s₁, s.Delivers ts s₁ ∧ s₁.FailsAfter us e := by
  constructor
  · rintro ⟨s₁, s₂, hDelivers, hNext⟩
    rcases Delivers.append_iff.mp hDelivers with ⟨s₀, hFirst, hRest⟩
    exact ⟨s₀, hFirst, s₁, s₂, hRest, hNext⟩
  · rintro ⟨s₀, hFirst, s₁, s₂, hRest, hNext⟩
    exact ⟨s₁, s₂, Delivers.append_iff.mpr ⟨s₀, hFirst, hRest⟩,
      hNext⟩

/- A look ahead does not change where a stream breaks off. -/
theorem hold
    (hNext : s.next = (.ok t, s₁))
    (h : s₁.FailsAfter ts e) :
    (s₁.hold t).FailsAfter (t :: ts) e :=
  cons_iff.mpr ⟨s₁, next_hold_of_next t hNext, h⟩

end FailsAfter

end Stream

------------------------------------------------------------
-- Values That Have Begun
------------------------------------------------------------

/- The tokens in front of the members of a node of a type. -/
inductive NodeStart : Shape → List Token → NodeType → Prop where
  | plain
      {t : NodeType}
      (hOther : t.category = .other) :
      NodeStart (.node t) [.objectOpen] t
  | tagged
      {t : NodeType}
      {tag : String}
      (hTag : t.category.tag? = some tag) :
      NodeStart (.node t)
        [.objectOpen, .key tag, .literal ⟨.string, t.name⟩] t
  | variant
      {t : NodeType}
      {sum : NodeSum}
      (hSum : t.category = sum.category) :
      NodeStart (.sum sum)
        [.objectOpen, .key sum.tag, .literal ⟨.string, t.name⟩] t

/- The tokens in front of the members open an object. -/
theorem NodeStart.eq_open_cons
    {shape : Shape}
    {start : List Token}
    {t : NodeType}
    (h : NodeStart shape start t) :
    ∃ rest, start = .objectOpen :: rest := by
  cases h with
  | plain => exact ⟨_, rfl⟩
  | tagged => exact ⟨_, rfl⟩
  | variant => exact ⟨_, rfl⟩

/- The tokens before the name in the tag of a node. -/
inductive TagStart : Shape → List Token → Prop where
  | node
      {t : NodeType}
      {tag : String}
      {ts : List Token}
      (hTag : t.category.tag? = some tag)
      (hTokens : ts = [] ∨ ts = [.key tag]) :
      TagStart (.node t) (.objectOpen :: ts)
  | sum
      {sum : NodeSum}
      {ts : List Token}
      (hTokens : ts = [] ∨ ts = [.key sum.tag]) :
      TagStart (.sum sum) (.objectOpen :: ts)

/-
  Tokens begin a value of a shape, hops lead to where the next
  token stands, and an error in place of the next token has some
  of these hops.  A node that reads ahead looks a key up only
  after the next token, so the key may be unknown.
-/
inductive Begins :
    Shape →
    List Token →
    (path told : List Hop) →
    Prop where
  | first
      {shape : Shape} :
      Begins shape [] [] []
  | tag
      {shape : Shape}
      {ts : List Token}
      (hTag : TagStart shape ts) :
      Begins shape ts [] []
  | members
      {shape : Shape}
      {start : List Token}
      {t : NodeType}
      {members : List (String × Json)}
      {values : List (String × Tree)}
      (hStart : NodeStart shape start t)
      (hBefore : MembersDenote t members values) :
      Begins shape (start ++ Json.memberTokens members) [] []
  | value
      {shape : Shape}
      {start : List Token}
      {t : NodeType}
      {f : Field}
      {key : String}
      {members : List (String × Json)}
      {values : List (String × Tree)}
      (hStart : NodeStart shape start t)
      (hBefore : MembersDenote t members values)
      (hField : t.field? key = some f) :
      Begins shape
        (start ++ Json.memberTokens members ++ [.key key])
        [.field t.name key]
        (if t.readsAhead then [] else [.field t.name key])
  | field
      {shape : Shape}
      {start us : List Token}
      {t : NodeType}
      {f : Field}
      {key : String}
      {members : List (String × Json)}
      {values : List (String × Tree)}
      {path told : List Hop}
      (hStart : NodeStart shape start t)
      (hBefore : MembersDenote t members values)
      (hField : t.field? key = some f)
      (hBegun : us ≠ [])
      (hValue : Begins f.shape us path told) :
      Begins shape
        (start ++ Json.memberTokens members ++ .key key :: us)
        (.field t.name key :: path) (.field t.name key :: told)
  | unknown
      {shape : Shape}
      {start : List Token}
      {t : NodeType}
      {key : String}
      {members : List (String × Json)}
      {values : List (String × Tree)}
      (hStart : NodeStart shape start t)
      (hBefore : MembersDenote t members values)
      (hField : t.field? key = none)
      (hAhead : t.readsAhead = true) :
      Begins shape
        (start ++ Json.memberTokens members ++ [.key key]) [] []
  | items
      {elem : Shape}
      {items : List Json}
      {trees : List Tree}
      (hBefore : ItemsDenote elem items trees) :
      Begins (.list elem) (.arrayOpen :: Json.itemTokens items) [] []
  | item
      {elem : Shape}
      {us : List Token}
      {items : List Json}
      {trees : List Tree}
      {path told : List Hop}
      (hBefore : ItemsDenote elem items trees)
      (hBegun : us ≠ [])
      (hItem : Begins elem us path told) :
      Begins (.list elem)
        (.arrayOpen :: (Json.itemTokens items ++ us))
        (.index items.length :: path) (.index items.length :: told)

namespace Begins

variable {shape : Shape} {ts : List Token}
variable {path told : List Hop}

/-
  An error has all hops, or the last one is missing: that into a
  member of a node that reads ahead, right behind the key.
-/
theorem told_cases
    (h : Begins shape ts path told) :
    told = path ∨
      ∃ (t : NodeType) (key : String),
        [.key key] <:+ ts ∧ t.readsAhead = true ∧
          path = told ++ [.field t.name key] := by
  induction h with
  | first => exact .inl rfl
  | tag => exact .inl rfl
  | members => exact .inl rfl
  | @value shape start t f key members values =>
      by_cases hAhead : t.readsAhead = true
      · rw [if_pos hAhead]
        exact .inr ⟨t, key, List.suffix_append _ _, hAhead, rfl⟩
      · rw [if_neg hAhead]
        exact .inl rfl
  | field _ _ _ _ _ ih =>
      rcases ih with hAll | ⟨t, key, hLast, hAhead, hPath⟩
      · exact .inl (congrArg _ hAll)
      · exact .inr ⟨t, key,
          (hLast.trans (List.suffix_cons _ _)).trans
            (List.suffix_append _ _),
          hAhead, congrArg _ hPath⟩
  | unknown => exact .inl rfl
  | items => exact .inl rfl
  | item _ _ _ ih =>
      rcases ih with hAll | ⟨t, key, hLast, hAhead, hPath⟩
      · exact .inl (congrArg _ hAll)
      · exact .inr ⟨t, key,
          (hLast.trans (List.suffix_append _ _)).trans
            (List.suffix_cons _ _),
          hAhead, congrArg _ hPath⟩

/- A literal has no beginning but that before it. -/
theorem eq_nil_of_scalar
    {type : ScalarType}
    (h : Begins (.scalar type) ts path told) :
    ts = [] := by
  generalize hShape : Shape.scalar type = shape at h
  cases h with
  | first => rfl
  | tag hTag => cases hTag <;> cases hShape
  | members hStart => cases hStart <;> cases hShape
  | value hStart => cases hStart <;> cases hShape
  | field hStart => cases hStart <;> cases hShape
  | unknown hStart => cases hStart <;> cases hShape
  | items => cases hShape
  | item => cases hShape

/- A value that has begun starts with the token of a value. -/
theorem head_startsValue
    {t : Token}
    (h : Begins shape (t :: ts) path told) :
    t.startsValue = true := by
  generalize hTokens : t :: ts = all at h
  cases h with
  | first => cases hTokens
  | tag hTag =>
      cases hTag with
      | node =>
          cases hTokens
          rfl
      | sum =>
          cases hTokens
          rfl
  | members hNode =>
      rcases hNode.eq_open_cons with ⟨rest, rfl⟩
      cases hTokens
      rfl
  | value hNode =>
      rcases hNode.eq_open_cons with ⟨rest, rfl⟩
      cases hTokens
      rfl
  | field hNode =>
      rcases hNode.eq_open_cons with ⟨rest, rfl⟩
      cases hTokens
      rfl
  | unknown hNode =>
      rcases hNode.eq_open_cons with ⟨rest, rfl⟩
      cases hTokens
      rfl
  | items =>
      cases hTokens
      rfl
  | item =>
      cases hTokens
      rfl

/- Before its first token a value has no hops. -/
theorem hops_eq_nil
    (h : Begins shape [] path told) :
    path = [] ∧ told = [] := by
  generalize hTokens : [] = ts at h
  cases h with
  | first => exact ⟨rfl, rfl⟩
  | tag => exact ⟨rfl, rfl⟩
  | members => exact ⟨rfl, rfl⟩
  | value => simp at hTokens
  | field => simp at hTokens
  | unknown => exact ⟨rfl, rfl⟩
  | items => exact ⟨rfl, rfl⟩
  | item => cases hTokens

end Begins

------------------------------------------------------------
-- Readings That Fail
------------------------------------------------------------

section

variable {α β σ : Type}
variable {x : Reading σ α} {f : α → Reading σ β}
variable {s s₁ : σ} {a : α} {e : DecodeError}

theorem fst_bind_error
    (h : (x s).1 = .error e) :
    ((x >>= f) s).1 = .error e := by
  rw [Action.bind_error (Prod.ext h rfl)]

theorem fst_mapError_error
    {hop : DecodeError → DecodeError}
    (h : (x s).1 = .error e) :
    (Reading.mapError hop x s).1 = .error (hop e) := by
  rw [Reading.mapError_error (Prod.ext h rfl)]

end

variable {μ : Type} [TokenMachine μ]

/- Members that conform are read one by one. -/
theorem readMembers_before
    {t : NodeType}
    {d : Shape → Reading (Stream μ) Tree}
    {members : List (String × Json)}
    {values : List (String × Tree)}
    (hMembers : MembersDenote t members values)
    (hValue : ∀ m ∈ members, Follows d m.2)
    (parts : Nat)
    (done : List (String × Tree))
    {s s' : Stream μ}
    (h : s.Delivers (Json.memberTokens members) s') :
    readMembers t d (members.length + parts) done s =
      readMembers t d parts (values.reverse ++ done) s' := by
  induction members generalizing values done s with
  | nil =>
      cases hMembers
      rw [Json.memberTokens, Stream.Delivers.nil_iff] at h
      rw [h, List.length_nil, Nat.zero_add]
      rfl
  | cons m members ih =>
      cases hMembers with
      | @cons _ f value v _ values hField hCarried hDenotes hRest =>
          rw [Json.memberTokens] at h
          rcases Stream.Delivers.cons_iff.mp h with
            ⟨s₁, hKey, hTokens⟩
          rcases Stream.Delivers.append_iff.mp hTokens with
            ⟨s₂, hFirst, hLater⟩
          have hMember : readMember t d f.key s₁ = (.ok v, s₂) := by
            have hGives := readMember_tokens t f.key
              (hValue _ List.mem_cons_self) hFirst
            rw [Json.decodeMember_eq_ok_iff.mpr
              ⟨f, hField, hCarried, rfl, hDenotes⟩] at hGives
            exact hGives.eq_of_ok
          rw [List.length_cons, Nat.add_right_comm, readMembers,
            Action.bind_ok (nextKey_key hKey)]
          dsimp only
          rw [Action.bind_ok hMember,
            ih hRest (fun m hMem =>
              hValue m (List.mem_cons_of_mem _ hMem)) _ hLater]
          simp

/- A mark does not come next where a stream breaks off. -/
theorem closes_of_failsAfter
    {mark : Token}
    {s : Stream μ}
    {ts : List Token}
    {e : DecodeError}
    (hOpen : ∀ t rest, ts = t :: rest → t ≠ mark)
    (h : s.FailsAfter ts e) :
    (ts = [] ∧ (closes mark s).1 = .error e) ∨
      ts ≠ [] ∧
        ∃ s', closes mark s = (.ok false, s') ∧
          s'.FailsAfter ts e := by
  cases ts with
  | nil =>
      rcases Stream.FailsAfter.nil_iff.mp h with ⟨s₁, hNext⟩
      exact .inl ⟨rfl, by rw [closes_error hNext]⟩
  | cons t rest =>
      rcases Stream.FailsAfter.cons_iff.mp h with ⟨s₁, hNext, hRest⟩
      exact .inr ⟨List.cons_ne_nil _ _, _,
        closes_ne hNext (hOpen t rest rfl), hRest.hold hNext⟩

/- A list does not close at an element. -/
theorem itemTokens_open
    {us : List Token}
    (hOpen : ∀ t rest, us = t :: rest → t ≠ .arrayClose)
    (items : List Json) :
    ∀ t rest,
      Json.itemTokens items ++ us = t :: rest → t ≠ .arrayClose := by
  intro t rest hEq
  cases items with
  | nil => exact hOpen t rest hEq
  | cons item items =>
      rcases item.tokens_eq_head_cons with ⟨ts, hTokens⟩
      rw [Json.itemTokens, hTokens] at hEq
      cases hEq
      exact item.head_ne_of_startsValue rfl

/- An object does not close at a member. -/
theorem memberTokens_open
    {us : List Token}
    (hOpen : ∀ t rest, us = t :: rest → t ≠ .objectClose)
    (members : List (String × Json)) :
    ∀ t rest,
      Json.memberTokens members ++ us = t :: rest →
        t ≠ .objectClose := by
  intro t rest hEq
  cases members with
  | nil => exact hOpen t rest hEq
  | cons m members =>
      cases hEq
      nofun

/-
  Elements that conform are read one by one, up to the failure or
  to an element in which it comes.
-/
theorem readItems_breaks
    {elem : Shape}
    {d : Shape → Reading (Stream μ) Tree}
    {items : List Json}
    {trees : List Tree}
    {us : List Token}
    {e inner : DecodeError}
    (hItems : ItemsDenote elem items trees)
    (hValue : ∀ item ∈ items, Follows d item)
    (hSome : items ≠ [] ∨ us ≠ [])
    (hOpen : ∀ t rest, us = t :: rest → t ≠ .arrayClose)
    (hNext :
      us ≠ [] → ∀ s : Stream μ, s.FailsAfter us e →
        (d elem s).1 = .error inner)
    {parts : Nat}
    (hParts : items.length < parts)
    (done : Array Tree)
    {s : Stream μ}
    (h : s.FailsAfter (Json.itemTokens items ++ us) e) :
    (readItems (d elem) parts done s).1 =
      .error (if us = [] then e
        else inner.atIndex (done.size + items.length)) := by
  induction items generalizing trees parts done s with
  | nil =>
      have hBegun : us ≠ [] := hSome.resolve_left (fun h => h rfl)
      cases parts with
      | zero => cases hParts
      | succ parts =>
          rw [readItems, if_neg hBegun]
          exact fst_bind_error
            (fst_mapError_error (hNext hBegun s h))
  | cons item items ih =>
      cases hItems with
      | @cons _ _ _ v trees hFirst hRest =>
      cases parts with
      | zero => cases hParts
      | succ parts =>
          rw [Json.itemTokens, List.append_assoc] at h
          rcases Stream.FailsAfter.append_iff.mp h with
            ⟨s₁, hItem, hLater⟩
          have hDecode : d elem s = (.ok v, s₁) := by
            have hGives := hValue item List.mem_cons_self elem s s₁
              hItem
            rw [(Json.decodeAs_eq_ok_iff _ _ _).mpr hFirst] at hGives
            exact hGives.eq_of_ok
          rw [readItems,
            Action.bind_ok (Reading.mapError_ok hDecode)]
          rcases closes_of_failsAfter (itemTokens_open hOpen items)
              hLater with
            ⟨hNil, hError⟩ | ⟨hSome, s₂, hCloses, hHeld⟩
          · rw [if_pos (List.append_eq_nil_iff.mp hNil).2]
            exact fst_bind_error hError
          · have hAgain : items ≠ [] ∨ us ≠ [] := by
              by_cases hLast : items = []
              · right
                rwa [hLast, Json.itemTokens, List.nil_append] at hSome
              · exact .inl hLast
            have hTail := ih hRest
              (fun i hMem => hValue i (List.mem_cons_of_mem _ hMem))
              hAgain (Nat.lt_of_succ_lt_succ hParts) (done.push v)
              hHeld
            rw [Array.size_push, Nat.add_assoc, Nat.add_comm 1]
              at hTail
            rw [Action.bind_ok hCloses]
            exact hTail

------------------------------------------------------------
-- Members That Break Off
------------------------------------------------------------

section

variable {t : NodeType} {f : Field} {key : String}
variable {d : Shape → Reading (Stream μ) Tree}
variable {s : Stream μ} {e : DecodeError}

/- The failure comes in place of the value of a member. -/
theorem readMember_first
    (hField : t.field? key = some f)
    (hFirst :
      ∀ s : Stream μ, s.FailsAfter [] e →
        (d f.shape s).1 = .error e)
    (h : s.FailsAfter [] e) :
    (readMember t d key s).1 =
      .error ⟨e.cause,
        (if t.readsAhead then [] else [.field t.name key])
          ++ e.path⟩ := by
  unfold readMember
  split
  · rcases Stream.FailsAfter.nil_iff.mp h with ⟨s₁, hNext⟩
    exact fst_bind_error (by rw [nextValue_error hNext]; rfl)
  · rw [hField]
    exact fst_mapError_error (hFirst s h)

/- The failure comes behind a key that is not looked up yet. -/
theorem readMember_unknown
    (hAhead : t.readsAhead = true)
    (h : s.FailsAfter [] e) :
    (readMember t d key s).1 = .error e := by
  rcases Stream.FailsAfter.nil_iff.mp h with ⟨s₁, hNext⟩
  unfold readMember
  rw [if_pos hAhead]
  exact fst_bind_error (by rw [nextValue_error hNext])

/- The failure comes in the value of a member. -/
theorem readMember_breaks
    {us : List Token}
    {path told : List Hop}
    {inner : DecodeError}
    (hField : t.field? key = some f)
    (hBegun : us ≠ [])
    (hBegins : Begins f.shape us path told)
    (hValue :
      ∀ s : Stream μ, s.FailsAfter us e →
        (d f.shape s).1 = .error inner)
    (h : s.FailsAfter us e) :
    (readMember t d key s).1 = .error (inner.within t.name key) := by
  unfold readMember
  split
  · cases us with
    | nil => exact absurd rfl hBegun
    | cons token rest =>
        rcases Stream.FailsAfter.cons_iff.mp h with
          ⟨s₁, hNext, hRest⟩
        have hHeld := hValue _ (hRest.hold hNext)
        rw [Action.bind_ok
          (nextValue_starts hNext hBegins.head_startsValue), hField]
        apply fst_mapError_error
        cases hShape : f.shape with
        | scalar type =>
            rw [hShape] at hBegins
            exact absurd hBegins.eq_nil_of_scalar hBegun
        | _ =>
            rw [hShape] at hHeld
            exact hHeld
  · rw [hField]
    exact fst_mapError_error (hValue s h)

/- Members that conform, and then one that breaks off. -/
theorem readFields_breaks
    {members : List (String × Json)}
    {values : List (String × Tree)}
    {us : List Token}
    {inner : DecodeError}
    (hMembers : MembersDenote t members values)
    (hValue : ∀ m ∈ members, Follows d m.2)
    {parts : Nat}
    (hParts : members.length < parts)
    (hNext :
      ∀ (parts : Nat) (done : List (String × Tree)) (s : Stream μ),
        s.FailsAfter us e →
          (readMembers t d (parts + 1) done s).1 = .error inner)
    (h : s.FailsAfter (Json.memberTokens members ++ us) e) :
    (readFields t d parts s).1 = .error inner := by
  rcases Stream.FailsAfter.append_iff.mp h with ⟨s₁, hBefore, hRest⟩
  rcases Nat.exists_eq_add_of_lt hParts with ⟨more, rfl⟩
  unfold readFields
  apply fst_bind_error
  rw [Nat.add_assoc, readMembers_before hMembers hValue _ _ hBefore]
  exact hNext _ _ _ hRest

end

------------------------------------------------------------
-- Values That Break Off
------------------------------------------------------------

/- The failure comes in place of a value. -/
theorem decodeWithin_first
    {parts levels : Nat}
    {s : Stream μ}
    {e : DecodeError}
    (shape : Shape)
    (h : s.FailsAfter [] e) :
    (decodeWithin parts (levels + 1) shape s).1 = .error e := by
  rcases Stream.FailsAfter.nil_iff.mp h with ⟨s₁, hNext⟩
  have hMark (mark : Token) : (expectMark mark s).1 = .error e := by
    rw [expectMark_error hNext]
  cases shape with
  | scalar type =>
      rw [decodeWithin]
      exact fst_bind_error (by rw [nextValue_error hNext])
  | node t =>
      rw [decodeWithin]
      exact fst_bind_error (hMark _)
  | sum sum =>
      rw [decodeWithin]
      exact fst_bind_error (hMark _)
  | list elem =>
      rw [decodeWithin]
      exact fst_bind_error (hMark _)

theorem readTag_of_failsAfter
    {tag name : String}
    {rest : List Token}
    {s : Stream μ}
    {e : DecodeError}
    (h :
      s.FailsAfter
        (.key tag :: .literal ⟨.string, name⟩ :: rest) e) :
    ∃ s', readTag tag s = (.ok name, s') ∧ s'.FailsAfter rest e := by
  rcases Stream.FailsAfter.cons_iff.mp h with ⟨s₁, hKey, h⟩
  rcases Stream.FailsAfter.cons_iff.mp h with ⟨s₂, hName, hRest⟩
  exact ⟨s₂, readTag_tag hKey (nextValue_starts hName rfl), hRest⟩

theorem closes_key
    {name : String}
    {s s₁ : Stream μ}
    (h : s.next = (.ok (.key name), s₁)) :
    closes .objectClose s = (.ok false, s₁.hold (.key name)) :=
  closes_ne h nofun

/- The failure comes before the name in a tag. -/
theorem closes_tagStart
    {tag : String}
    {ts : List Token}
    {s : Stream μ}
    {e : DecodeError}
    (hTokens : ts = [] ∨ ts = [.key tag])
    (h : s.FailsAfter ts e) :
    (closes .objectClose s).1 = .error e ∨
      ∃ s', closes .objectClose s = (.ok false, s') ∧
        (readTag tag s').1 = .error e := by
  rcases hTokens with rfl | rfl
  · rcases Stream.FailsAfter.nil_iff.mp h with ⟨s₁, hNext⟩
    exact .inl (by rw [closes_error hNext])
  · rcases Stream.FailsAfter.cons_iff.mp h with ⟨s₁, hKey, h⟩
    rcases Stream.FailsAfter.nil_iff.mp h with ⟨s₂, hNext⟩
    refine .inr ⟨_, closes_key hKey, ?_⟩
    unfold readTag
    rw [nextToken_bind_ok (Stream.next_hold_of_next _ hKey)]
    dsimp only
    rw [if_pos rfl]
    exact fst_bind_error (by rw [nextValue_error hNext])

/- The failure comes in the tag of a node. -/
theorem decodeWithin_tagStart
    {parts levels : Nat}
    {shape : Shape}
    {ts : List Token}
    {s : Stream μ}
    {e : DecodeError}
    (hTag : TagStart shape ts)
    (h : s.FailsAfter ts e) :
    (decodeWithin parts (levels + 1) shape s).1 = .error e := by
  cases hTag with
  | @node t tag _ hTag hTokens =>
      rcases Stream.FailsAfter.cons_iff.mp h with ⟨s₁, hMark, h⟩
      rw [decodeWithin]
      unfold readNode
      rw [Action.bind_ok (expectMark_eq hMark)]
      rcases closes_tagStart hTokens h with
        hError | ⟨s₂, hCloses, hError⟩
      · exact fst_bind_error hError
      · rw [Action.bind_ok hCloses, hTag]
        exact fst_bind_error (fst_bind_error hError)
  | sum hTokens =>
      rcases Stream.FailsAfter.cons_iff.mp h with ⟨s₁, hMark, h⟩
      rw [decodeWithin]
      unfold readSum
      rw [Action.bind_ok (expectMark_eq hMark)]
      rcases closes_tagStart hTokens h with
        hError | ⟨s₂, hCloses, hError⟩
      · exact fst_bind_error hError
      · rw [Action.bind_ok hCloses]
        exact fst_bind_error hError

/-
  The opening of a node is read, and its fields come next, unless
  the failure comes at once.
-/
theorem decodeWithin_nodeStart
    {parts levels : Nat}
    {shape : Shape}
    {start rest : List Token}
    {t : NodeType}
    {s : Stream μ}
    {e : DecodeError}
    (hStart : NodeStart shape start t)
    (hOpen : ∀ t more, rest = t :: more → t ≠ .objectClose)
    (h : s.FailsAfter (start ++ rest) e) :
    (rest = [] ∧
      (decodeWithin parts (levels + 1) shape s).1 = .error e) ∨
    ∃ s' : Stream μ,
      s'.FailsAfter rest e ∧
        (decodeWithin parts (levels + 1) shape s).1 =
          (readFields t (decodeWithin parts levels) parts s').1 := by
  cases hStart with
  | plain hOther =>
      rcases Stream.FailsAfter.cons_iff.mp h with ⟨s₁, hMark, h⟩
      rw [decodeWithin]
      unfold readNode
      rw [Action.bind_ok (expectMark_eq hMark)]
      rcases closes_of_failsAfter hOpen h with
        ⟨hNil, hError⟩ | ⟨_, s₂, hCloses, hHeld⟩
      · exact .inl ⟨hNil, fst_bind_error hError⟩
      · refine .inr ⟨s₂, hHeld, ?_⟩
        rw [Action.bind_ok hCloses,
          NodeType.category_eq_other_iff.mpr hOther]
        rfl
  | @tagged _ tag hTag =>
      rcases Stream.FailsAfter.cons_iff.mp h with ⟨s₁, hMark, h⟩
      rcases Stream.FailsAfter.cons_iff.mp h with ⟨s₂, hKey, hName⟩
      rcases readTag_of_failsAfter (hName.hold hKey) with
        ⟨s₃, hRead, hRest⟩
      have hVariant :
          expectVariant tag t (s₂.hold (.key tag)) =
            (.ok (), s₃) := by
        unfold expectVariant
        rw [Action.bind_ok hRead, if_pos rfl]
        rfl
      refine .inr ⟨s₃, hRest, ?_⟩
      rw [decodeWithin]
      unfold readNode
      rw [Action.bind_ok (expectMark_eq hMark),
        Action.bind_ok (closes_key hKey), hTag]
      dsimp only
      rw [if_neg Bool.false_ne_true, Action.bind_ok hVariant]
  | variant hSum =>
      rcases Stream.FailsAfter.cons_iff.mp h with ⟨s₁, hMark, h⟩
      rcases Stream.FailsAfter.cons_iff.mp h with ⟨s₂, hKey, hName⟩
      rcases readTag_of_failsAfter (hName.hold hKey) with
        ⟨s₃, hRead, hRest⟩
      refine .inr ⟨s₃, hRest, ?_⟩
      rw [decodeWithin]
      unfold readSum
      rw [Action.bind_ok (expectMark_eq hMark),
        Action.bind_ok (closes_key hKey),
        if_neg Bool.false_ne_true, Action.bind_ok hRead,
        NodeSum.variant?_eq_some_iff.mpr ⟨hSum, rfl⟩]

section

variable {parts levels : Nat} {shape : Shape}
variable {start : List Token} {t : NodeType}
variable {members : List (String × Json)}
variable {values : List (String × Tree)}

/- Enough levels and parts for a beginning are so for its values. -/
theorem follows_of_mem_members
    (hLevels : (Json.memberTokens members).length ≤ levels)
    (hParts : (Json.memberTokens members).length ≤ parts) :
    ∀ m ∈ members, Follows (μ := μ) (decodeWithin parts levels) m.2 := by
  intro m hMem
  have hLength := Json.tokens_length_le_of_mem_members hMem
  exact decodeWithin_follows parts levels m.2
    (hLength.trans hLevels) (hLength.trans hParts)

/- A node breaks off behind members that conform. -/
theorem decodeWithin_members_break
    {us : List Token}
    {s : Stream μ}
    {e inner : DecodeError}
    (hStart : NodeStart shape start t)
    (hBefore : MembersDenote t members values)
    (hLevels : (Json.memberTokens members).length ≤ levels)
    (hParts : (Json.memberTokens members).length < parts)
    (hOpen : ∀ t rest, us = t :: rest → t ≠ .objectClose)
    (hNil : us = [] → inner = e)
    (hNext :
      ∀ (rest : Nat) (done : List (String × Tree)) (s : Stream μ),
        s.FailsAfter us e →
          (readMembers t (decodeWithin parts levels) (rest + 1) done
            s).1 = .error inner)
    (h : s.FailsAfter (start ++ Json.memberTokens members ++ us) e) :
    (decodeWithin parts (levels + 1) shape s).1 = .error inner := by
  rw [List.append_assoc] at h
  rcases decodeWithin_nodeStart hStart
      (memberTokens_open hOpen members) h with
    ⟨hEmpty, hError⟩ | ⟨s₁, hRest, hFields⟩
  · rw [hNil (List.append_eq_nil_iff.mp hEmpty).2]
    exact hError
  · rw [hFields]
    exact readFields_breaks hBefore
      (follows_of_mem_members hLevels (Nat.le_of_lt hParts))
      ((Json.length_le_memberTokens members).trans_lt hParts) hNext
      hRest

/- A node breaks off in a member behind those that conform. -/
theorem decodeWithin_member_breaks
    {key : String}
    {us : List Token}
    {s : Stream μ}
    {e inner : DecodeError}
    (hStart : NodeStart shape start t)
    (hBefore : MembersDenote t members values)
    (hLevels : (Json.memberTokens members).length ≤ levels)
    (hParts : (Json.memberTokens members).length < parts)
    (hMember :
      ∀ s : Stream μ, s.FailsAfter us e →
        (readMember t (decodeWithin parts levels) key s).1 =
          .error inner)
    (h :
      s.FailsAfter
        (start ++ Json.memberTokens members ++ .key key :: us) e) :
    (decodeWithin parts (levels + 1) shape s).1 = .error inner := by
  refine decodeWithin_members_break hStart hBefore hLevels hParts
    ?_ ?_ ?_ h
  · intro token rest hEq
    cases hEq
    nofun
  · nofun
  · intro rest done s hKey
    rcases Stream.FailsAfter.cons_iff.mp hKey with ⟨s₁, hNext, hRest⟩
    unfold readMembers
    rw [Action.bind_ok (nextKey_key hNext)]
    exact fst_bind_error (hMember s₁ hRest)

end

/- A list breaks off behind elements that conform. -/
theorem decodeWithin_items_break
    {parts levels : Nat}
    {elem : Shape}
    {items : List Json}
    {trees : List Tree}
    {us : List Token}
    {s : Stream μ}
    {e inner : DecodeError}
    (hBefore : ItemsDenote elem items trees)
    (hLevels : (Json.itemTokens items).length ≤ levels)
    (hParts : (Json.itemTokens items).length < parts)
    (hOpen : ∀ t rest, us = t :: rest → t ≠ .arrayClose)
    (hNext :
      us ≠ [] → ∀ s : Stream μ, s.FailsAfter us e →
        (decodeWithin parts levels elem s).1 = .error inner)
    (h : s.FailsAfter (.arrayOpen :: (Json.itemTokens items ++ us)) e) :
    (decodeWithin parts (levels + 1) (.list elem) s).1 =
      .error (if us = [] then e
        else inner.atIndex items.length) := by
  have hValue :
      ∀ item ∈ items, Follows (decodeWithin parts levels) item
        (μ := μ) := by
    intro item hMem
    have hLength := Json.tokens_length_le_of_mem_items hMem
    exact decodeWithin_follows parts levels item
      (hLength.trans hLevels)
      (hLength.trans (Nat.le_of_lt hParts))
  rcases Stream.FailsAfter.cons_iff.mp h with ⟨s₁, hMark, hRest⟩
  rw [decodeWithin]
  unfold readList
  rw [Action.bind_ok (expectMark_eq hMark)]
  rcases closes_of_failsAfter (itemTokens_open hOpen items) hRest with
    ⟨hNil, hError⟩ | ⟨hSome, s₂, hCloses, hHeld⟩
  · rw [if_pos (List.append_eq_nil_iff.mp hNil).2]
    exact fst_bind_error hError
  · have hBegun : items ≠ [] ∨ us ≠ [] := by
      by_cases hLast : items = []
      · right
        rwa [hLast, Json.itemTokens, List.nil_append] at hSome
      · exact .inl hLast
    have hItems := readItems_breaks hBefore hValue hBegun hOpen hNext
      ((Json.length_le_itemTokens items).trans_lt hParts) #[] hHeld
    rw [Array.size_empty, Nat.zero_add] at hItems
    rw [Action.bind_ok hCloses, if_neg Bool.false_ne_true]
    exact fst_bind_error hItems

/-
  Where a stream breaks off in a value that has begun, decoding
  fails with its error and the hops that an error has there.  The
  induction is on how the value has begun.
-/
theorem decodeWithin_begins
    {parts levels : Nat}
    {shape : Shape}
    {ts : List Token}
    {path told : List Hop}
    {s : Stream μ}
    {e : DecodeError}
    (hBegins : Begins shape ts path told)
    (hLevels : ts.length ≤ levels)
    (hParts : ts.length < parts)
    (h : s.FailsAfter ts e) :
    (decodeWithin parts (levels + 1) shape s).1 =
      .error ⟨e.cause, told ++ e.path⟩ := by
  induction hBegins generalizing levels s with
  | first => exact decodeWithin_first _ h
  | tag hTag => exact decodeWithin_tagStart hTag h
  | members hStart hBefore =>
      rw [List.length_append] at hLevels hParts
      rw [← List.append_nil (_ ++ _)] at h
      refine decodeWithin_members_break hStart hBefore (by omega)
        (by omega) ?_ ?_ ?_ h
      · nofun
      · exact fun _ => rfl
      · intro rest done s hNil
        rcases Stream.FailsAfter.nil_iff.mp hNil with ⟨s₁, hNext⟩
        unfold readMembers
        exact fst_bind_error (by rw [nextKey_error hNext]; rfl)
  | value hStart hBefore hField =>
      rcases hStart.eq_open_cons with ⟨opened, rfl⟩
      rw [List.length_append, List.length_append,
        List.length_singleton] at hLevels hParts
      cases levels with
      | zero => omega
      | succ levels =>
          exact decodeWithin_member_breaks hStart hBefore (by omega)
            (by omega)
            (fun s h => readMember_first hField
              (fun s h => decodeWithin_first _ h) h) h
  | field hStart hBefore hField hBegun hValue ih =>
      rcases hStart.eq_open_cons with ⟨opened, rfl⟩
      rw [List.length_append, List.length_append, List.length_cons,
        List.length_cons] at hLevels hParts
      cases levels with
      | zero => omega
      | succ levels =>
          exact decodeWithin_member_breaks hStart hBefore (by omega)
            (by omega)
            (fun s h => readMember_breaks hField hBegun hValue
              (fun s h => ih (by omega) (by omega) h) h) h
  | unknown hStart hBefore hField hAhead =>
      rw [List.length_append, List.length_append,
        List.length_singleton] at hLevels hParts
      exact decodeWithin_member_breaks hStart hBefore (by omega)
        (by omega) (fun s h => readMember_unknown hAhead h) h
  | items hBefore =>
      rw [List.length_cons] at hLevels hParts
      rw [← List.append_nil (Json.itemTokens _)] at h
      have hBreak :
          (decodeWithin parts (levels + 1) _ s).1 =
            .error (if [] = [] then e else e.atIndex _) :=
        decodeWithin_items_break hBefore (by omega) (by omega)
          (by simp) (fun hSome => absurd rfl hSome) h
      rw [if_pos rfl] at hBreak
      exact hBreak
  | @item elem us items _ path told hBefore hBegun hItem ih =>
      rw [List.length_cons, List.length_append] at hLevels hParts
      have hOpen : ∀ t rest, us = t :: rest → t ≠ .arrayClose := by
        rintro t rest rfl rfl
        cases hItem.head_startsValue
      cases levels with
      | zero => omega
      | succ levels =>
          have hBreak :
              (decodeWithin parts (levels + 1 + 1) (.list elem) s).1 =
                .error (if us = [] then e
                  else DecodeError.atIndex
                    ⟨e.cause, told ++ e.path⟩ items.length) :=
            decodeWithin_items_break hBefore (by omega) (by omega)
              hOpen (fun _ s h => ih (by omega) (by omega) h) h
          rw [if_neg hBegun] at hBreak
          exact hBreak

end TreeWire
