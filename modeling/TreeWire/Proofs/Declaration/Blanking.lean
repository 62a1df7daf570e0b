import Mathlib.Data.List.Forall2
import TreeWire.Declaration.Items
import TreeWire.Proofs.Action

/-
  Parsers that do not look into strings.

  Trees can be read with the values of all strings left out.  A
  parser does not look into strings if it then goes the same way:
  it fails with the same error, or gives the same and leaves the
  same trees, without the values of their strings.  Such parsers
  form a class, and so do the tests of the next trees that they
  make: what is made of them is found to be one of them.

  Key definitions include:
    * `TokenTree.blankedAll`
    * `Parser.Agrees`
    * `Parser.Blind`
    * `Parser.Keeps`
    * `TokenTree.BlindTest`

  Main statements:
    * `agrees_bind`
    * `agrees_within`
    * `agrees_many`
-/

namespace TreeWire

namespace Declaration

open TreeWire.Declaration.Parser
open TreeWire.Declaration.TokenTree

------------------------------------------------------------
-- Trees without the Values of Strings
------------------------------------------------------------

/- A literal, with an empty string in place of another one. -/
def SourceLiteral.blanked : SourceLiteral → SourceLiteral
  | .string _ => .string ""
  | lit => lit

namespace TokenTree

mutual

/- A tree whose strings are empty. -/
def blanked : TokenTree → TokenTree
  | .ident name => .ident name
  | .lifetime name => .lifetime name
  | .punct mark joint => .punct mark joint
  | .literal lit => .literal lit.blanked
  | .group delimiter trees => .group delimiter (blankedAll trees)

/- Trees whose strings are empty. -/
def blankedAll : List TokenTree → List TokenTree
  | [] => []
  | tree :: trees => blanked tree :: blankedAll trees

end

mutual

theorem size_blanked
    (tree : TokenTree) :
    tree.blanked.size = tree.size := by
  cases tree with
  | group delimiter trees =>
      rw [blanked, size, size, sizeAll_blankedAll trees]
  | _ => rfl

theorem sizeAll_blankedAll
    (trees : List TokenTree) :
    sizeAll (blankedAll trees) = sizeAll trees := by
  cases trees with
  | nil => rfl
  | cons tree trees =>
      rw [blankedAll, sizeAll, sizeAll, size_blanked tree,
        sizeAll_blankedAll trees]

end

@[simp]
theorem isEmpty_blankedAll
    (trees : List TokenTree) :
    (blankedAll trees).isEmpty = trees.isEmpty := by
  cases trees <;> rfl

@[simp]
theorem length_blankedAll
    (trees : List TokenTree) :
    (blankedAll trees).length = trees.length := by
  induction trees with
  | nil => rfl
  | cons tree trees ih =>
      rw [blankedAll, List.length_cons, List.length_cons, ih]

@[simp]
theorem drop_blankedAll
    (count : Nat)
    (trees : List TokenTree) :
    (blankedAll trees).drop count = blankedAll (trees.drop count) := by
  induction trees generalizing count with
  | nil => rw [blankedAll, List.drop_nil, blankedAll]
  | cons tree trees ih =>
      cases count with
      | zero => rfl
      | succ count => exact ih count

@[simp]
theorem tail_blankedAll
    (trees : List TokenTree) :
    (blankedAll trees).tail = blankedAll trees.tail := by
  cases trees <;> rfl

------------------------------------------------------------
-- Looking Ahead
------------------------------------------------------------

theorem afterMarks?_blankedAll
    (marks : List Char)
    (trees : List TokenTree) :
    afterMarks? marks (blankedAll trees) =
      (afterMarks? marks trees).map blankedAll := by
  induction marks generalizing trees with
  | nil => rfl
  | cons c cs ih =>
      cases trees with
      | nil => cases cs <;> rfl
      | cons tree trees =>
          cases tree with
          | punct mark joint =>
              cases cs with
              | nil =>
                  rw [blankedAll, blanked, afterMarks?, afterMarks?]
                  split <;> rfl
              | cons d ds =>
                  rw [blankedAll, blanked, afterMarks?, afterMarks?,
                    ih]
                  · split <;> rfl
                  · exact nofun
                  · exact nofun
          | _ => cases cs <;> rfl

@[simp]
theorem seesPunct_blankedAll
    (marks : String)
    (trees : List TokenTree) :
    seesPunct marks (blankedAll trees) = seesPunct marks trees := by
  rw [seesPunct, seesPunct, afterMarks?_blankedAll, Option.isSome_map]

@[simp]
theorem seesWord_blankedAll
    (word : String)
    (trees : List TokenTree) :
    seesWord word (blankedAll trees) = seesWord word trees := by
  rcases trees with _ | ⟨_ | _ | _ | _ | _, trees⟩ <;> rfl

@[simp]
theorem seesOneOf_blankedAll
    (words : List String)
    (trees : List TokenTree) :
    seesOneOf words (blankedAll trees) = seesOneOf words trees := by
  rcases trees with _ | ⟨_ | _ | _ | _ | _, trees⟩ <;> rfl

@[simp]
theorem seesAnyWord_blankedAll
    (trees : List TokenTree) :
    seesAnyWord (blankedAll trees) = seesAnyWord trees := by
  rcases trees with _ | ⟨_ | _ | _ | _ | _, trees⟩ <;> rfl

@[simp]
theorem seesIdent_blankedAll
    (trees : List TokenTree) :
    seesIdent (blankedAll trees) = seesIdent trees := by
  rcases trees with _ | ⟨_ | _ | _ | _ | _, trees⟩ <;> rfl

@[simp]
theorem seesLifetime_blankedAll
    (trees : List TokenTree) :
    seesLifetime (blankedAll trees) = seesLifetime trees := by
  rcases trees with _ | ⟨_ | _ | _ | _ | _, trees⟩ <;> rfl

@[simp]
theorem seesGroup_blankedAll
    (delimiter : Delimiter)
    (trees : List TokenTree) :
    seesGroup delimiter (blankedAll trees) =
      seesGroup delimiter trees := by
  rcases trees with _ | ⟨_ | _ | _ | _ | _, trees⟩ <;> rfl

theorem afterLiteral?_blankedAll
    (trees : List TokenTree) :
    afterLiteral? (blankedAll trees) =
      (afterLiteral? trees).map blankedAll := by
  rcases trees with _ | ⟨name | name | ⟨mark, joint⟩ | lit | _, trees⟩
  · rfl
  · rw [blankedAll, blanked, afterLiteral?, afterLiteral?]
    split <;> rfl
  · rfl
  · by_cases hMark : mark = '-'
    · subst hMark
      rcases trees with _ | ⟨_ | _ | _ | lit | _, trees⟩
      case cons.literal => cases lit <;> rfl
      all_goals rfl
    · have hNone (rest : List TokenTree) :
          afterLiteral? (.punct mark joint :: rest) = none := by
        unfold afterLiteral?
        split <;> simp_all
      rw [blankedAll, blanked, hNone, hNone]
      rfl
  · rfl
  · rfl

@[simp]
theorem seesLiteral_blankedAll
    (trees : List TokenTree) :
    seesLiteral (blankedAll trees) = seesLiteral trees := by
  rw [seesLiteral, seesLiteral, afterLiteral?_blankedAll,
    Option.isSome_map]

@[simp]
theorem seesString_blankedAll
    (trees : List TokenTree) :
    seesString (blankedAll trees) = seesString trees := by
  rcases trees with _ | ⟨_ | _ | _ | lit | _, trees⟩
  case cons.literal => cases lit <;> rfl
  all_goals rfl

end TokenTree

------------------------------------------------------------
-- Parsers
------------------------------------------------------------

namespace Parser

variable {α β : Type}

/-
  Two results agree: the same error, or related values with the
  same trees left, the second time without the values of strings.
-/
inductive Agree
    (r : α → β → Prop) :
    Except SyntaxError (α × List TokenTree) →
      Except SyntaxError (β × List TokenTree) → Prop where
  | error (e : SyntaxError) :
      Agree r (.error e) (.error e)
  | ok {a : α} {b : β} (rest : List TokenTree) (h : r a b) :
      Agree r (.ok (a, rest)) (.ok (b, blankedAll rest))

/-
  Whether what a parser gives agrees with what another one gives
  once the values of strings are left out.
-/
def Agrees
    (r : α → β → Prop)
    (p : Parser α)
    (q : Parser β) : Prop :=
  ∀ trees, Agree r (p trees) (q (blankedAll trees))

/- A parser that does not look into strings. -/
class Blind
    (p : Parser α) : Prop where
  agrees : Agrees (· = ·) p p

/-
  Two parsers that leave the same trees, if the second one reads
  them without the values of strings.  What they give is not
  compared.
-/
class Keeps
    (p q : Parser α) : Prop where
  agrees : Agrees (fun _ _ => True) p q

end Parser

section

variable {α β γ δ : Type} {r : α → β → Prop} {s : γ → δ → Prop}

theorem Parser.Agree.cases
    {result : Except SyntaxError (α × List TokenTree)}
    {other : Except SyntaxError (β × List TokenTree)}
    (h : Agree r result other) :
    (∃ e, result = .error e ∧ other = .error e) ∨
    ∃ a b rest,
      result = .ok (a, rest) ∧ other = .ok (b, blankedAll rest) ∧
        r a b := by
  cases h with
  | error e => exact .inl ⟨e, rfl, rfl⟩
  | ok rest h => exact .inr ⟨_, _, rest, rfl, rfl, h⟩

theorem Parser.Agrees.weaken
    {t : α → β → Prop}
    {p : Parser α}
    {q : Parser β}
    (h : Agrees r p q)
    (hWeak : ∀ a b, r a b → t a b) :
    Agrees t p q := by
  intro trees
  rcases (h trees).cases with ⟨e, hFirst, hOther⟩ |
    ⟨a, b, rest, hFirst, hOther, hSame⟩
  · rw [hFirst, hOther]
    exact .error e
  · rw [hFirst, hOther]
    exact .ok rest (hWeak a b hSame)

theorem agrees_pure
    {a : α}
    {b : β}
    (h : r a b) :
    Agrees r (pure a) (pure b) :=
  fun trees => .ok trees h

theorem agrees_fail
    {message : String} :
    Agrees r (Parser.fail message) (Parser.fail message) :=
  fun _ => .error _

theorem agrees_bind
    {p : Parser α}
    {q : Parser β}
    {f : α → Parser γ}
    {k : β → Parser δ}
    (h : Agrees r p q)
    (hNext : ∀ a b, r a b → Agrees s (f a) (k b)) :
    Agrees s (p >>= f) (q >>= k) := by
  intro trees
  change Agree s (p trees >>= fun found => f found.1 found.2)
    (q (blankedAll trees) >>= fun found => k found.1 found.2)
  rcases (h trees).cases with ⟨e, hFirst, hOther⟩ |
    ⟨a, b, rest, hFirst, hOther, hSame⟩
  · rw [hFirst, hOther]
    exact .error e
  · rw [hFirst, hOther]
    exact hNext a b hSame rest

theorem agrees_ite
    {test : Prop}
    [Decidable test]
    {p p' : Parser α}
    {q q' : Parser β}
    (hThen : Agrees r p q)
    (hElse : Agrees r p' q') :
    Agrees r (if test then p else p') (if test then q else q') := by
  split
  · exact hThen
  · exact hElse

/- Trees in a group are read to their end, or not. -/
theorem agree_inside
    {p : Parser α}
    {q : Parser β}
    {inner : List TokenTree}
    (h : Agree r (p inner) (q (blankedAll inner)))
    (trees : List TokenTree) :
    Agree r (inside inner p trees)
      (inside (blankedAll inner) q (blankedAll trees)) := by
  unfold inside
  rcases h.cases with ⟨e, hFirst, hOther⟩ |
    ⟨a, b, rest, hFirst, hOther, hSame⟩
  · rw [hFirst, hOther]
    exact .error e
  · rw [hFirst, hOther]
    cases rest with
    | nil => exact .ok trees hSame
    | cons tree rest => exact .error _

theorem agrees_group
    (delimiter : Delimiter) :
    Agrees (fun inner blanked => blanked = blankedAll inner)
      (group delimiter) (group delimiter) := by
  rintro (_ | ⟨_ | _ | _ | _ | ⟨other, inner⟩, trees⟩)
  case cons.group =>
    rw [blankedAll, blanked, Parser.group, Parser.group]
    by_cases hSame : other = delimiter
    · rw [if_pos hSame, if_pos hSame]
      exact .ok trees rfl
    · rw [if_neg hSame, if_neg hSame]
      exact .error _
  all_goals exact .error _

theorem agrees_anyGroup :
    Agrees (fun found other => other = (found.1, blankedAll found.2))
      anyGroup anyGroup := by
  rintro (_ | ⟨_ | _ | _ | _ | ⟨delimiter, inner⟩, trees⟩)
  case cons.group => exact .ok trees rfl
  all_goals exact .error _

/- That a string is read does not depend on its value. -/
theorem agrees_string :
    Agrees (fun _ other => other = "") string string := by
  rintro (_ | ⟨_ | _ | _ | lit | _, trees⟩)
  case cons.literal =>
    cases lit with
    | string value => exact .ok trees rfl
    | _ => exact .error _
  all_goals exact .error _

theorem agrees_within
    {p : Parser α}
    {q : Parser β}
    (delimiter : Delimiter)
    (h : Agrees r p q) :
    Agrees r (within delimiter p) (within delimiter q) :=
  agrees_bind (agrees_group delimiter) fun inner _ hSame =>
    hSame ▸ agree_inside (h inner)

theorem agrees_repeatWithin
    {p : Parser (Option α)}
    {q : Parser (Option β)}
    (h : Agrees (Option.Rel r) p q)
    (count : Nat) :
    Agrees (List.Forall₂ r) (repeatWithin p count)
      (repeatWithin q count) := by
  induction count with
  | zero => exact agrees_pure .nil
  | succ count ih =>
      refine agrees_bind h fun found other hSame => ?_
      cases hSame with
      | none => exact agrees_pure .nil
      | some hSame =>
          exact agrees_bind ih fun _ _ hRest =>
            agrees_pure (.cons hSame hRest)

theorem agrees_many
    {p : Parser (Option α)}
    {q : Parser (Option β)}
    (h : Agrees (Option.Rel r) p q) :
    Agrees (List.Forall₂ r) (many p) (many q) := by
  intro trees
  rw [many, many, length_blankedAll]
  exact agrees_repeatWithin h _ trees

end

------------------------------------------------------------
-- Parsers That Do Not Look into Strings
------------------------------------------------------------

namespace TokenTree

/- A test of the next trees that does not look into strings. -/
class BlindTest
    (test : List TokenTree → Bool) : Prop where
  same : ∀ trees, test (blankedAll trees) = test trees

theorem test_blankedAll
    (test : List TokenTree → Bool)
    [BlindTest test]
    (trees : List TokenTree) :
    test (blankedAll trees) = test trees :=
  BlindTest.same trees

section

variable {test other : List TokenTree → Bool}

instance : BlindTest List.isEmpty := ⟨isEmpty_blankedAll⟩

instance (marks : String) : BlindTest (seesPunct marks) :=
  ⟨seesPunct_blankedAll marks⟩

instance (word : String) : BlindTest (seesWord word) :=
  ⟨seesWord_blankedAll word⟩

instance (words : List String) : BlindTest (seesOneOf words) :=
  ⟨seesOneOf_blankedAll words⟩

instance : BlindTest seesAnyWord := ⟨seesAnyWord_blankedAll⟩

instance : BlindTest seesIdent := ⟨seesIdent_blankedAll⟩

instance : BlindTest seesLifetime := ⟨seesLifetime_blankedAll⟩

instance (delimiter : Delimiter) : BlindTest (seesGroup delimiter) :=
  ⟨seesGroup_blankedAll delimiter⟩

instance : BlindTest seesLiteral := ⟨seesLiteral_blankedAll⟩

instance : BlindTest seesString := ⟨seesString_blankedAll⟩

instance (b : Bool) : BlindTest fun _ => b := ⟨fun _ => rfl⟩

instance [BlindTest test] : BlindTest fun trees => !test trees :=
  ⟨fun trees => by rw [test_blankedAll test]⟩

instance [BlindTest test] [BlindTest other] :
    BlindTest fun trees => test trees && other trees :=
  ⟨fun trees => by
    rw [test_blankedAll test, test_blankedAll other]⟩

instance [BlindTest test] [BlindTest other] :
    BlindTest fun trees => test trees || other trees :=
  ⟨fun trees => by
    rw [test_blankedAll test, test_blankedAll other]⟩

instance [BlindTest test] (count : Nat) :
    BlindTest fun trees => test (trees.drop count) :=
  ⟨fun trees => by rw [drop_blankedAll, test_blankedAll test]⟩

end

end TokenTree

namespace Parser

section

variable {α β : Type} {p : Parser α} {f : α → Parser β}

instance (a : α) : Blind (pure a) :=
  ⟨agrees_pure rfl⟩

theorem blind_bind
    (h : Blind p)
    (hNext : ∀ a, Blind (f a)) :
    Blind (p >>= f) :=
  ⟨agrees_bind h.agrees fun a _ hSame => hSame ▸ (hNext a).agrees⟩

instance [h : Blind p] [hNext : ∀ a, Blind (f a)] :
    Blind (p >>= f) :=
  blind_bind h hNext

theorem blind_ite
    {test : Prop}
    [Decidable test]
    {q : Parser α}
    (hThen : Blind p)
    (hElse : Blind q) :
    Blind (if test then p else q) :=
  ⟨agrees_ite hThen.agrees hElse.agrees⟩

instance {test : Prop} [Decidable test] {q : Parser α}
    [hThen : Blind p] [hElse : Blind q] :
    Blind (if test then p else q) :=
  blind_ite hThen hElse

instance (message : String) :
    Blind (Parser.fail message : Parser α) :=
  ⟨agrees_fail⟩

instance (message : String) :
    Blind (failHere message : Parser α) := by
  refine ⟨fun trees => ?_⟩
  rw [failHere, failHere, isEmpty_blankedAll]
  exact .error _

theorem blind_sees
    {test : List TokenTree → Bool}
    (h : ∀ trees, test (blankedAll trees) = test trees) :
    Blind (sees test) := by
  refine ⟨fun trees => ?_⟩
  rw [sees, sees, h]
  exact .ok trees rfl

instance {test : List TokenTree → Bool} [BlindTest test] :
    Blind (sees test) :=
  blind_sees (test_blankedAll test)

instance : Blind atEnd :=
  inferInstanceAs (Blind (sees List.isEmpty))

instance (count : Nat) : Blind (skip count) := by
  refine ⟨fun trees => ?_⟩
  rw [skip, skip, drop_blankedAll]
  exact .ok _ rfl

instance (marks : String) : Blind (punct marks) := by
  refine ⟨fun trees => ?_⟩
  rw [Parser.punct, Parser.punct, afterMarks?_blankedAll]
  cases afterMarks? marks.toList trees with
  | none => exact .error _
  | some rest => exact .ok rest rfl

instance (marks : String) : Blind (punct? marks) := by
  refine ⟨fun trees => ?_⟩
  rw [punct?, punct?, afterMarks?_blankedAll]
  cases afterMarks? marks.toList trees with
  | none => exact .ok trees rfl
  | some rest => exact .ok rest rfl

instance (text : String) : Blind (word text) := by
  unfold word
  infer_instance

instance (text : String) : Blind (word? text) := by
  unfold word?
  infer_instance

instance : Blind anyWord := by
  refine ⟨?_⟩
  rintro (_ | ⟨name | _ | _ | _ | _, trees⟩)
  case cons.ident => exact .ok trees rfl
  all_goals exact .error _

instance : Blind ident := by
  refine ⟨?_⟩
  rintro (_ | ⟨name | _ | _ | _ | _, trees⟩)
  case cons.ident =>
    rw [blankedAll, blanked, Parser.ident, Parser.ident]
    split
    · exact .error _
    · exact .ok trees rfl
  all_goals exact .error _

instance : Blind lifetime := by
  unfold Parser.lifetime
  infer_instance

instance : Blind literal := by
  refine ⟨fun trees => ?_⟩
  rw [Parser.literal, advance, advance, afterLiteral?_blankedAll,
    isEmpty_blankedAll]
  cases afterLiteral? trees with
  | none => exact .error _
  | some rest => exact .ok rest rfl

instance (delimiter : Delimiter) [Blind p] :
    Blind (within delimiter p) :=
  ⟨agrees_within delimiter Blind.agrees⟩

instance {p : Parser (Option α)} [Blind p] : Blind (many p) := by
  have hOption : Agrees (Option.Rel (· = ·)) p p :=
    (Blind.agrees (p := p)).weaken fun a b hSame => by
      subst hSame
      cases a with
      | none => exact .none
      | some a => exact .some rfl
  exact ⟨(agrees_many hOption).weaken fun _ _ hSame =>
    List.forall₂_eq_eq_eq ▸ hSame⟩

instance {test : List TokenTree → Bool} [BlindTest test] [Blind p] :
    Blind (manyWhile test p) := by
  unfold manyWhile
  infer_instance

theorem blind_separatedWithin
    {stop : List TokenTree → Bool}
    [BlindTest stop]
    [Blind p]
    (marks : String)
    (count : Nat) :
    Blind (separatedWithin marks stop p count) := by
  induction count with
  | zero => exact inferInstanceAs (Blind (pure []))
  | succ count ih =>
      unfold separatedWithin
      infer_instance

/- A reader of so many parts at most as there are trees. -/
theorem blind_ofLength
    {p : Nat → Parser α}
    (h : ∀ count, Blind (p count)) :
    Blind fun trees => p (trees.length + 1) trees := by
  refine ⟨fun trees => ?_⟩
  rw [length_blankedAll]
  exact (h _).agrees trees

instance {stop : List TokenTree → Bool} [BlindTest stop] [Blind p] :
    Blind (commasUntil stop p) :=
  blind_ofLength (blind_separatedWithin ",")

instance [Blind p] : Blind (commaList p) :=
  inferInstanceAs (Blind (commasUntil List.isEmpty p))

end

------------------------------------------------------------
-- Parsers That Leave the Same Trees
------------------------------------------------------------

section

variable {α β : Type} {p q : Parser α} {f k : α → Parser β}

instance [Blind p] : Keeps p p :=
  ⟨(Blind.agrees (p := p)).weaken fun _ _ _ => trivial⟩

instance (a b : α) : Keeps (pure a) (pure b) :=
  ⟨agrees_pure trivial⟩

/- Nothing depends on what comes first. -/
instance (priority := low) keeps_bind
    [Keeps p q] [∀ a b, Keeps (f a) (k b)] :
    Keeps (p >>= f) (q >>= k) :=
  ⟨agrees_bind Keeps.agrees fun _ _ _ => Keeps.agrees⟩

/- What comes first is the same. -/
theorem keeps_after
    (h : Blind p)
    (hNext : ∀ a, Keeps (f a) (k a)) :
    Keeps (p >>= f) (p >>= k) :=
  ⟨agrees_bind h.agrees fun a _ hSame => hSame ▸ (hNext a).agrees⟩

instance [h : Blind p] [hNext : ∀ a, Keeps (f a) (k a)] :
    Keeps (p >>= f) (p >>= k) :=
  keeps_after h hNext

/- What comes first is only read. -/
instance (priority := low) blind_after
    {next : Parser β} [Keeps p p] [Blind next] :
    Blind (p >>= fun _ => next) :=
  ⟨agrees_bind (Keeps.agrees (p := p)) fun _ _ _ => Blind.agrees⟩

instance {test : Prop} [Decidable test] {p' q' : Parser α}
    [Keeps p q] [Keeps p' q'] :
    Keeps (if test then p else p') (if test then q else q') :=
  ⟨agrees_ite Keeps.agrees Keeps.agrees⟩

instance (delimiter : Delimiter) [Keeps p q] :
    Keeps (within delimiter p) (within delimiter q) :=
  ⟨agrees_within delimiter Keeps.agrees⟩

instance {test : List TokenTree → Bool} [BlindTest test] [Keeps p q] :
    Keeps (manyWhile test p) (manyWhile test q) := by
  have hOne : Agrees (Option.Rel fun _ _ => True)
      (do if ← sees test then return some (← p) else pure none)
      (do if ← sees test then return some (← q) else pure none) :=
    agrees_bind (Blind.agrees (p := sees test)) fun _ _ hSame =>
      hSame ▸ agrees_ite
        (agrees_bind Keeps.agrees fun _ _ _ =>
          agrees_pure (.some trivial))
        (agrees_pure .none)
  exact ⟨(agrees_many hOne).weaken fun _ _ _ => trivial⟩

theorem keeps_separatedWithin
    {stop : List TokenTree → Bool}
    [BlindTest stop]
    [Keeps p q]
    (marks : String)
    (count : Nat) :
    Keeps (separatedWithin marks stop p count)
      (separatedWithin marks stop q count) := by
  induction count with
  | zero => exact inferInstanceAs (Keeps (pure []) (pure []))
  | succ count ih =>
      unfold separatedWithin
      infer_instance

instance [Keeps p q] : Keeps (commaList p) (commaList q) := by
  refine ⟨fun trees => ?_⟩
  rw [commaList, commaList, commasUntil, commasUntil,
    length_blankedAll]
  exact (keeps_separatedWithin "," _).agrees trees

instance : Keeps string string :=
  ⟨agrees_string.weaken fun _ _ _ => trivial⟩

instance : Keeps anyGroup anyGroup :=
  ⟨agrees_anyGroup.weaken fun _ _ _ => trivial⟩

instance (delimiter : Delimiter) :
    Keeps (group delimiter) (group delimiter) :=
  ⟨(agrees_group delimiter).weaken fun _ _ _ => trivial⟩

end

end Parser

end Declaration

end TreeWire
