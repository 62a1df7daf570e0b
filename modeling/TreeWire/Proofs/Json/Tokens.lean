import TreeWire.Json.Basic

/-
  The tokens of trees, and those within a limit of nesting.

  No token of a tree is `eof`, and no other tree has the same
  tokens.  `Token.within limit depth tokens` are the tokens
  before the first container that opens beyond the limit, when
  so many are open already.  The tokens of a tree are all within
  a limit exactly when the tree nests no deeper.

  Main statements:
    * `Json.eof_not_mem_tokens`
    * `Json.tokens_injective`
    * `Json.within_tokens`
    * `Json.within_tokens_beyond`
    * `Json.within_tokens_eq_iff`
-/

namespace TreeWire

namespace Token

/- Whether a token opens a container. -/
def opens : Token → Bool
  | .objectOpen => true
  | .arrayOpen => true
  | _ => false

/- How many containers are open after a token. -/
def nest
    (depth : Nat) : Token → Nat
  | .objectOpen => depth + 1
  | .arrayOpen => depth + 1
  | .objectClose => depth - 1
  | .arrayClose => depth - 1
  | _ => depth

theorem nest_of_opens
    {t : Token}
    (h : t.opens = true)
    (depth : Nat) :
    t.nest depth = depth + 1 := by
  cases t with
  | objectOpen | arrayOpen => rfl
  | _ => cases h

theorem nest_mono
    {depth depth' : Nat}
    (h : depth ≤ depth')
    (t : Token) :
    t.nest depth ≤ t.nest depth' := by
  cases t <;> simp only [nest] <;> omega

theorem nest_le_succ
    (depth : Nat)
    (t : Token) :
    t.nest depth ≤ depth + 1 := by
  cases t <;> simp only [nest] <;> omega

/- The tokens before the first container beyond the limit. -/
def within
    (limit : Nat) :
    (depth : Nat) →
    List Token →
    List Token
  | _, [] =>
      []
  | depth, t :: ts =>
      if t.opens = true ∧ limit ≤ depth then
        []
      else
        t :: within limit (nest depth t) ts

theorem within_isPrefix
    (limit depth : Nat)
    (ts : List Token) :
    within limit depth ts <+: ts := by
  induction ts generalizing depth with
  | nil => exact List.nil_prefix
  | cons t ts ih =>
      rw [within]
      split
      · exact List.nil_prefix
      · exact List.cons_prefix_cons.mpr ⟨rfl, ih _⟩

end Token

namespace Json

open Token (within nest opens)

------------------------------------------------------------
-- No End Inside
------------------------------------------------------------

mutual

/- No token of a tree is `eof`. -/
theorem eof_not_mem_tokens : ∀ j : Json, .eof ∉ j.tokens
  | .literal lit => by
      simp [tokens]
  | .array items => by
      have := eof_not_mem_itemTokens items
      simp [tokens, this]
  | .object members => by
      have := eof_not_mem_memberTokens members
      simp [tokens, this]

theorem eof_not_mem_itemTokens :
    ∀ items : List Json, .eof ∉ itemTokens items
  | [] => by
      simp [itemTokens]
  | item :: items => by
      have hFirst := eof_not_mem_tokens item
      have hRest := eof_not_mem_itemTokens items
      simp [itemTokens, hFirst, hRest]

theorem eof_not_mem_memberTokens :
    ∀ members : List (String × Json), .eof ∉ memberTokens members
  | [] => by
      simp [memberTokens]
  | (key, value) :: members => by
      have hFirst := eof_not_mem_tokens value
      have hRest := eof_not_mem_memberTokens members
      simp [memberTokens, hFirst, hRest]

end

------------------------------------------------------------
-- One Tree for Its Tokens
------------------------------------------------------------

mutual

/- The tokens of a tree determine the tree and its end. -/
theorem tokens_append_inj :
    (j j' : Json) →
    (rest rest' : List Token) →
    j.tokens ++ rest = j'.tokens ++ rest' →
    j = j' ∧ rest = rest'
  | .literal lit, j', rest, rest', h => by
      cases j' with
      | literal lit' => simpa [tokens] using h
      | array items' => simp [tokens] at h
      | object members' => simp [tokens] at h
  | .array items, j', rest, rest', h => by
      cases j' with
      | literal lit' => simp [tokens] at h
      | array items' =>
          have hItems := itemTokens_append_inj items items' rest rest'
            (by simpa [tokens] using h)
          simpa using hItems
      | object members' => simp [tokens] at h
  | .object members, j', rest, rest', h => by
      cases j' with
      | literal lit' => simp [tokens] at h
      | array items' => simp [tokens] at h
      | object members' =>
          have hMembers :=
            memberTokens_append_inj members members' rest rest'
              (by simpa [tokens] using h)
          simpa using hMembers

theorem itemTokens_append_inj :
    (items items' : List Json) →
    (rest rest' : List Token) →
    itemTokens items ++ .arrayClose :: rest =
      itemTokens items' ++ .arrayClose :: rest' →
    items = items' ∧ rest = rest'
  | [], [], rest, rest', h => by
      simpa [itemTokens] using h
  | [], item' :: items', rest, rest', h => by
      cases item' <;> simp [itemTokens, tokens] at h
  | item :: items, [], rest, rest', h => by
      cases item <;> simp [itemTokens, tokens] at h
  | item :: items, item' :: items', rest, rest', h => by
      rw [itemTokens, itemTokens, List.append_assoc,
        List.append_assoc] at h
      rcases tokens_append_inj item item' _ _ h with ⟨rfl, hRest⟩
      rcases itemTokens_append_inj items items' rest rest' hRest with
        ⟨rfl, rfl⟩
      exact ⟨rfl, rfl⟩

theorem memberTokens_append_inj :
    (members members' : List (String × Json)) →
    (rest rest' : List Token) →
    memberTokens members ++ .objectClose :: rest =
      memberTokens members' ++ .objectClose :: rest' →
    members = members' ∧ rest = rest'
  | [], [], rest, rest', h => by
      simpa [memberTokens] using h
  | [], (key', value') :: members', rest, rest', h => by
      simp [memberTokens] at h
  | (key, value) :: members, [], rest, rest', h => by
      simp [memberTokens] at h
  | (key, value) :: members, (key', value') :: members',
      rest, rest', h => by
      rw [memberTokens, memberTokens, List.cons_append,
        List.cons_append, List.append_assoc,
        List.append_assoc] at h
      rcases List.cons.inj h with ⟨hKey, hTail⟩
      cases hKey
      rcases tokens_append_inj value value' _ _ hTail with
        ⟨rfl, hRest⟩
      rcases memberTokens_append_inj members members' rest rest'
        hRest with ⟨rfl, rfl⟩
      exact ⟨rfl, rfl⟩

end

/- Trees with the same tokens are the same. -/
theorem tokens_injective
    {j j' : Json}
    (h : j.tokens = j'.tokens) :
    j = j' :=
  (tokens_append_inj j j' [] [] (by rw [h])).1

variable {limit : Nat}

------------------------------------------------------------
-- Within the Limit
------------------------------------------------------------

mutual

/- A tree that nests no deeper than the limit is kept. -/
theorem within_tokens :
    (j : Json) →
    (depth : Nat) →
    (rest : List Token) →
    depth + j.depth ≤ limit →
    within limit depth (j.tokens ++ rest) =
      j.tokens ++ within limit depth rest
  | .literal lit, depth, rest, _ => by
      simp [tokens, within, opens, nest]
  | .array items, depth, rest, h => by
      rw [Json.depth] at h
      simp only [tokens, List.cons_append, List.append_assoc,
        within, nest]
      rw [if_neg (by omega),
        within_itemTokens items (depth + 1) _ (by omega)]
      simp [within, opens, nest]
  | .object members, depth, rest, h => by
      rw [Json.depth] at h
      simp only [tokens, List.cons_append, List.append_assoc,
        within, nest]
      rw [if_neg (by omega),
        within_memberTokens members (depth + 1) _ (by omega)]
      simp [within, opens, nest]

theorem within_itemTokens :
    (items : List Json) →
    (depth : Nat) →
    (rest : List Token) →
    depth + itemsDepth items ≤ limit →
    within limit depth (itemTokens items ++ rest) =
      itemTokens items ++ within limit depth rest
  | [], _, _, _ => rfl
  | item :: items, depth, rest, h => by
      rw [itemsDepth] at h
      rw [itemTokens, List.append_assoc,
        within_tokens item depth _ (by omega),
        within_itemTokens items depth rest (by omega),
        List.append_assoc]

theorem within_memberTokens :
    (members : List (String × Json)) →
    (depth : Nat) →
    (rest : List Token) →
    depth + membersDepth members ≤ limit →
    within limit depth (memberTokens members ++ rest) =
      memberTokens members ++ within limit depth rest
  | [], _, _, _ => rfl
  | (key, value) :: members, depth, rest, h => by
      rw [membersDepth] at h
      simp only [memberTokens, List.cons_append,
        List.append_assoc, within, nest]
      rw [if_neg (by simp [opens]),
        within_tokens value depth _ (by omega),
        within_memberTokens members depth rest (by omega)]

end

------------------------------------------------------------
-- Beyond the Limit
------------------------------------------------------------

/-
  Tokens are cut before a container that opens beyond the
  limit, whatever comes after them.
-/
def CutWithin
    (limit depth : Nat)
    (ts : List Token) : Prop :=
  ∃ us t vs,
    ts = us ++ t :: vs ∧ t.opens = true ∧
      ∀ rest, within limit depth (ts ++ rest) = us

theorem CutWithin.first
    {depth : Nat}
    {t : Token}
    {ts : List Token}
    (hDepth : limit ≤ depth)
    (hOpens : t.opens = true) :
    CutWithin limit depth (t :: ts) := by
  refine ⟨[], t, ts, rfl, hOpens, ?_⟩
  intro rest
  rw [List.cons_append, within, if_pos ⟨hOpens, hDepth⟩]

theorem CutWithin.cons
    {depth : Nat}
    {t : Token}
    {ts : List Token}
    (hKept : ¬ (t.opens = true ∧ limit ≤ depth))
    (h : CutWithin limit (nest depth t) ts) :
    CutWithin limit depth (t :: ts) := by
  rcases h with ⟨us, t', vs, rfl, hOpens, hWithin⟩
  refine ⟨t :: us, t', vs, rfl, hOpens, ?_⟩
  intro rest
  rw [List.cons_append, within, if_neg hKept, hWithin]

theorem CutWithin.append
    {depth : Nat}
    {ts : List Token}
    (more : List Token)
    (h : CutWithin limit depth ts) :
    CutWithin limit depth (ts ++ more) := by
  rcases h with ⟨us, t, vs, hTokens, hOpens, hWithin⟩
  refine ⟨us, t, vs ++ more, ?_, hOpens, ?_⟩
  · rw [hTokens, List.append_assoc, List.cons_append]
  · intro rest
    rw [List.append_assoc]
    exact hWithin _

theorem CutWithin.prepend
    {depth : Nat}
    {ts us : List Token}
    (hKept :
      ∀ rest,
        within limit depth (us ++ rest) =
          us ++ within limit depth rest)
    (h : CutWithin limit depth ts) :
    CutWithin limit depth (us ++ ts) := by
  rcases h with ⟨vs, t, ws, rfl, hOpens, hWithin⟩
  refine ⟨us ++ vs, t, ws, by simp, hOpens, ?_⟩
  intro rest
  rw [List.append_assoc, hKept, hWithin]

mutual

/- A tree that nests deeper than the limit is cut. -/
theorem within_tokens_beyond :
    (j : Json) →
    (depth : Nat) →
    depth ≤ limit →
    limit < depth + j.depth →
    CutWithin limit depth j.tokens
  | .literal lit, depth, hDepth, h => by
      rw [Json.depth] at h
      omega
  | .array items, depth, hDepth, h => by
      rw [Json.depth] at h
      rw [tokens]
      by_cases hOpen : limit ≤ depth
      · exact .first hOpen rfl
      · apply CutWithin.cons fun hCut => hOpen hCut.2
        exact (within_itemTokens_beyond items (depth + 1)
          (by omega) (by omega)).append _
  | .object members, depth, hDepth, h => by
      rw [Json.depth] at h
      rw [tokens]
      by_cases hOpen : limit ≤ depth
      · exact .first hOpen rfl
      · apply CutWithin.cons fun hCut => hOpen hCut.2
        exact (within_memberTokens_beyond members (depth + 1)
          (by omega) (by omega)).append _

theorem within_itemTokens_beyond :
    (items : List Json) →
    (depth : Nat) →
    depth ≤ limit →
    limit < depth + itemsDepth items →
    CutWithin limit depth (itemTokens items)
  | [], depth, hDepth, h => by
      rw [itemsDepth] at h
      omega
  | item :: items, depth, hDepth, h => by
      rw [itemsDepth] at h
      rw [itemTokens]
      by_cases hItem : depth + item.depth ≤ limit
      · exact (within_itemTokens_beyond items depth hDepth
          (by omega)).prepend fun rest =>
            within_tokens item depth rest hItem
      · exact (within_tokens_beyond item depth hDepth
          (by omega)).append _

theorem within_memberTokens_beyond :
    (members : List (String × Json)) →
    (depth : Nat) →
    depth ≤ limit →
    limit < depth + membersDepth members →
    CutWithin limit depth (memberTokens members)
  | [], depth, hDepth, h => by
      rw [membersDepth] at h
      omega
  | (key, value) :: members, depth, hDepth, h => by
      rw [membersDepth] at h
      rw [memberTokens]
      apply CutWithin.cons (by simp [opens])
      by_cases hValue : depth + value.depth ≤ limit
      · exact (within_memberTokens_beyond members depth hDepth
          (by omega)).prepend fun rest =>
            within_tokens value depth rest hValue
      · exact (within_tokens_beyond value depth hDepth
          (by omega)).append _

end

/- All tokens of a tree are within its own depth. -/
theorem within_tokens_eq_iff
    (j : Json) :
    within limit 0 j.tokens = j.tokens ↔ j.depth ≤ limit := by
  constructor
  · intro h
    by_cases hDepth : j.depth ≤ limit
    · exact hDepth
    · rcases within_tokens_beyond j 0 (Nat.zero_le limit)
        (by omega) with ⟨us, t, vs, hTokens, _, hWithin⟩
      have hCut := hWithin []
      rw [List.append_nil, h, hTokens] at hCut
      simp at hCut
  · intro hDepth
    have hKept :=
      within_tokens j 0 [] (by rwa [Nat.zero_add] : 0 + _ ≤ limit)
    simpa [within] using hKept

/- Cut tokens are fewer. -/
theorem within_tokens_length_iff
    (j : Json) :
    (within limit 0 j.tokens).length = j.tokens.length ↔
      j.depth ≤ limit := by
  rw [← within_tokens_eq_iff]
  constructor
  · intro hLength
    exact (Token.within_isPrefix limit 0 j.tokens).eq_of_length
      hLength
  · intro hEq
    rw [hEq]

end Json

end TreeWire
