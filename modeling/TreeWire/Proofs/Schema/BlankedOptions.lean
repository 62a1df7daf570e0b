import TreeWire.Proofs.Declaration.BlindGrammar
import TreeWire.Schema.WireOptions

/-
  Options without the values of strings.

  What the options of attributes are does not depend on the values
  of the strings in them, but for the names that `rename` and `tag`
  give.  The one exception is a new name that is given twice, for
  each direction: then the two have to be the same.

  Key definitions include:
    * `Attribute.blanked`
    * `WireOptions.unnamed`
    * `directionsDiffer`

  Main statements:
    * `ofAttributes_blanked`
-/

namespace TreeWire

open Declaration
open TreeWire.Declaration.Parser
open TreeWire.Declaration.TokenTree

------------------------------------------------------------
-- Attributes and Options without Names
------------------------------------------------------------

namespace Declaration

/- What stands after the path, with empty strings. -/
def AttributeBody.blanked : AttributeBody → AttributeBody
  | .absent => .absent
  | .value => .value
  | .list trees => .list (blankedAll trees)

/- An attribute whose strings are empty. -/
def Attribute.blanked
    (a : Attribute) : Attribute :=
  { a with body := a.body.blanked }

end Declaration

/- A name without its text, if there is one. -/
def withoutText
    (name : Option String) : Option String :=
  name.map fun _ => ""

/- Options without the texts of the names that they give. -/
def WireOptions.unnamed
    (o : WireOptions) : WireOptions :=
  { o with
    rename := withoutText o.rename
    tag := withoutText o.tag }

/- Names for the two directions, without their texts. -/
def TwoNames.unnamed
    (names : TwoNames) : TwoNames :=
  ⟨withoutText names.serialize, withoutText names.deserialize⟩

/- That the names for the two directions are not the same. -/
def directionsDiffer : SyntaxError :=
  ⟨"the wire name must be the same in both directions", false⟩

------------------------------------------------------------
-- Results That May Fail on the Directions
------------------------------------------------------------

/-
  Whether what a parser gives agrees with what another one gives
  once the values of strings are left out, unless the names for
  the two directions differ.
-/
def MostlyAgrees
    {α β : Type}
    (r : α → β → Prop)
    (p : Parser α)
    (q : Parser β) : Prop :=
  ∀ trees,
    p trees = .error directionsDiffer ∨
      Agree r (p trees) (q (blankedAll trees))

section

variable {α β γ δ : Type} {r : α → β → Prop} {s : γ → δ → Prop}

theorem Declaration.Parser.Agrees.mostly
    {p : Parser α}
    {q : Parser β}
    (h : Agrees r p q) :
    MostlyAgrees r p q :=
  fun trees => .inr (h trees)

theorem mostlyAgrees_pure
    {a : α}
    {b : β}
    (h : r a b) :
    MostlyAgrees r (pure a) (pure b) :=
  (agrees_pure h).mostly

theorem mostlyAgrees_bind
    {p : Parser α}
    {q : Parser β}
    {f : α → Parser γ}
    {k : β → Parser δ}
    (h : MostlyAgrees r p q)
    (hNext : ∀ a b, r a b → MostlyAgrees s (f a) (k b)) :
    MostlyAgrees s (p >>= f) (q >>= k) := by
  intro trees
  change (p trees >>= fun found => f found.1 found.2) = _ ∨
    Agree s (p trees >>= fun found => f found.1 found.2)
      (q (blankedAll trees) >>= fun found => k found.1 found.2)
  rcases h trees with hDiffer | hAgree
  · rw [hDiffer]
    exact .inl rfl
  · rcases hAgree.cases with ⟨e, hFirst, hOther⟩ |
      ⟨a, b, rest, hFirst, hOther, hSame⟩
    · rw [hFirst, hOther]
      exact .inr (.error e)
    · rw [hFirst, hOther]
      exact hNext a b hSame rest

/- What comes first does not look into strings. -/
theorem mostlyAgrees_after
    {p : Parser α}
    {f : α → Parser γ}
    {k : α → Parser δ}
    (h : Blind p)
    (hNext : ∀ a, MostlyAgrees s (f a) (k a)) :
    MostlyAgrees s (p >>= f) (p >>= k) :=
  mostlyAgrees_bind (h.agrees.mostly) fun a _ hSame =>
    hSame ▸ hNext a

theorem mostlyAgrees_ite
    {test : Prop}
    [Decidable test]
    {p p' : Parser α}
    {q q' : Parser β}
    (hThen : MostlyAgrees r p q)
    (hElse : MostlyAgrees r p' q') :
    MostlyAgrees r (if test then p else p')
      (if test then q else q') := by
  split
  · exact hThen
  · exact hElse

theorem mostlyAgrees_within
    {p : Parser α}
    {q : Parser β}
    (delimiter : Delimiter)
    (h : MostlyAgrees r p q) :
    MostlyAgrees r (within delimiter p) (within delimiter q) := by
  refine mostlyAgrees_bind ((agrees_group delimiter).mostly)
    fun inner _ hSame => ?_
  subst hSame
  intro trees
  unfold inside
  rcases h inner with hDiffer | hAgree
  · rw [hDiffer]
    exact .inl rfl
  · exact .inr (agree_inside hAgree trees)

end

------------------------------------------------------------
-- Lists of Options
------------------------------------------------------------

instance : Blind OptionPath.parse := by
  unfold OptionPath.parse
  infer_instance

section

variable {α β : Type} {r : α → β → Prop}

theorem mostlyAgrees_optionsWithin
    {read : OptionPath → α → Parser α}
    {other : OptionPath → β → Parser β}
    (h :
      ∀ path a b, r a b → MostlyAgrees r (read path a) (other path b))
    (count : Nat)
    {a : α}
    {b : β}
    (hState : r a b) :
    MostlyAgrees r (optionsWithin read count a)
      (optionsWithin other count b) := by
  induction count generalizing a b with
  | zero => exact mostlyAgrees_pure hState
  | succ count ih =>
      refine mostlyAgrees_after inferInstance fun path =>
        mostlyAgrees_bind (h path a b hState) fun a b hState => ?_
      have hDone : MostlyAgrees r (pure a) (pure b) :=
        mostlyAgrees_pure hState
      exact mostlyAgrees_after inferInstance fun _ =>
        mostlyAgrees_ite hDone <|
          mostlyAgrees_after inferInstance fun _ =>
            mostlyAgrees_after inferInstance fun _ =>
              mostlyAgrees_ite hDone (ih hState)

theorem mostlyAgrees_options
    {read : OptionPath → α → Parser α}
    {other : OptionPath → β → Parser β}
    (h :
      ∀ path a b, r a b → MostlyAgrees r (read path a) (other path b))
    {a : α}
    {b : β}
    (hState : r a b) :
    MostlyAgrees r (options read a) (options other b) := by
  intro trees
  rw [options, options, length_blankedAll]
  exact mostlyAgrees_optionsWithin h _ hState trees

instance {read : OptionPath → α → Parser α}
    [hRead : ∀ path a, Blind (read path a)] (a : α) :
    Blind (options read a) := by
  refine blind_ofLength (p := fun count =>
    optionsWithin read count a) fun count => ?_
  induction count generalizing a with
  | zero => exact inferInstanceAs (Blind (pure a))
  | succ count ih =>
      unfold optionsWithin
      infer_instance

end

------------------------------------------------------------
-- Values of Options
------------------------------------------------------------

/- Of a string, the value is left out. -/
theorem agrees_stringValue :
    Agrees (fun _ other => other = "") stringValue stringValue :=
  agrees_bind (Blind.agrees (p := Parser.punct "=")) fun _ _ _ =>
    agrees_string

theorem agrees_readDirection
    (path : OptionPath)
    (names : TwoNames) :
    Agrees (fun names other => other = names.unnamed)
      (readDirection path names) (readDirection path names.unnamed) := by
  refine agrees_bind agrees_stringValue fun value _ hSame => ?_
  subst hSame
  exact agrees_ite (agrees_pure rfl)
    (agrees_ite (agrees_pure rfl) agrees_fail)

theorem mostlyAgrees_renameValue :
    MostlyAgrees (fun _ other => other = "") renameValue renameValue := by
  have hNames :
      MostlyAgrees (fun names other => other = names.unnamed)
        (options readDirection ⟨none, none⟩)
        (options readDirection ⟨none, none⟩) :=
    mostlyAgrees_options (fun path names other hSame => by
      subst hSame
      exact (agrees_readDirection path names).mostly) rfl
  refine mostlyAgrees_after inferInstance fun _ =>
    mostlyAgrees_ite (agrees_stringValue.mostly) ?_
  refine mostlyAgrees_bind (mostlyAgrees_within _ hNames)
    fun names other hSame => ?_
  subst hSame
  -- Only two names that are given can be compared.
  rcases names with ⟨_ | a, _ | b⟩
  case some.some =>
    intro trees
    by_cases hAgree : a = b
    · right
      subst hAgree
      dsimp only
      rw [if_pos rfl]
      exact .ok trees rfl
    · left
      dsimp only
      rw [if_neg hAgree]
      rfl
  all_goals exact agrees_fail.mostly

/- An option without effect is read whatever its strings are. -/
theorem blind_ignoreOption
    {g : Grammar}
    [g.Blind]
    (depth : Nat) :
    Blind (ignoreOption g depth) := by
  induction depth with
  | zero => exact inferInstanceAs (Blind (Parser.fail _))
  | succ depth ih =>
      unfold ignoreOption
      infer_instance

------------------------------------------------------------
-- Wire Options
------------------------------------------------------------

section

variable {g : Grammar} [g.Blind]

theorem mostlyAgrees_readOption
    (path : OptionPath)
    {o other : WireOptions}
    (h : o.unnamed = other.unnamed) :
    MostlyAgrees (fun o other => o.unnamed = other.unnamed)
      (WireOptions.readOption g path o)
      (WireOptions.readOption g path other) := by
  have hIgnored :
      Blind fun trees => ignoreOption g (sizeAll trees + 1) trees := by
    refine ⟨fun trees => ?_⟩
    rw [sizeAll_blankedAll]
    exact (blind_ignoreOption _).agrees trees
  rcases o with ⟨rename, tag, hasDefault, skip, flatten⟩
  rcases other with ⟨rename', tag', hasDefault', skip', flatten'⟩
  rcases (WireOptions.mk.injEq ..).mp h with
    ⟨hRename, hTag, rfl, rfl, rfl⟩
  unfold WireOptions.readOption
  refine mostlyAgrees_ite ?_ <| mostlyAgrees_ite ?_ <|
    mostlyAgrees_ite ?_ <| mostlyAgrees_ite ?_ <|
    mostlyAgrees_ite ?_ ?_
  · exact mostlyAgrees_bind mostlyAgrees_renameValue fun _ _ _ =>
      mostlyAgrees_pure <|
        (WireOptions.mk.injEq ..).mpr ⟨rfl, hTag, rfl, rfl, rfl⟩
  · exact mostlyAgrees_bind agrees_stringValue.mostly fun _ _ _ =>
      mostlyAgrees_pure <|
        (WireOptions.mk.injEq ..).mpr ⟨hRename, rfl, rfl, rfl, rfl⟩
  · exact mostlyAgrees_after inferInstance fun _ =>
      mostlyAgrees_ite agrees_fail.mostly <| mostlyAgrees_pure <|
        (WireOptions.mk.injEq ..).mpr ⟨hRename, hTag, rfl, rfl, rfl⟩
  · exact mostlyAgrees_pure <|
      (WireOptions.mk.injEq ..).mpr ⟨hRename, hTag, rfl, rfl, rfl⟩
  · exact mostlyAgrees_pure <|
      (WireOptions.mk.injEq ..).mpr ⟨hRename, hTag, rfl, rfl, rfl⟩
  · exact mostlyAgrees_after hIgnored fun _ => mostlyAgrees_pure h

end

/- The options that stand in the brackets of an attribute. -/
theorem addAttribute_cons
    {rooted : Bool}
    {path : List String}
    {tree : TokenTree}
    {trees : List TokenTree}
    (o : WireOptions) :
    o.addAttribute ⟨rooted, path, .list (tree :: trees)⟩ =
      ((options (WireOptions.readOption (grammarFor (tree :: trees)))
        o (tree :: trees)).map Prod.fst).mapError
          Reason.badAttribute := by
  dsimp only [WireOptions.addAttribute]
  cases options (WireOptions.readOption (grammarFor (tree :: trees)))
    o (tree :: trees) <;> rfl

/- The options of an attribute, unless the directions differ. -/
theorem addAttribute_blanked
    (a : Attribute)
    {o other : WireOptions}
    (h : o.unnamed = other.unnamed) :
    o.addAttribute a = .error (.badAttribute directionsDiffer) ∨
      (o.addAttribute a).map WireOptions.unnamed =
        (other.addAttribute a.blanked).map WireOptions.unnamed := by
  rcases a with ⟨rooted, path, _ | _ | ⟨_ | ⟨tree, trees⟩⟩⟩
  case list.cons =>
    have hRead :=
      mostlyAgrees_options (fun path _ _ =>
        mostlyAgrees_readOption (g := grammarFor (tree :: trees)) path)
        h (tree :: trees)
    have hGrammar := grammarFor_blankedAll (tree :: trees)
    rw [Attribute.blanked, AttributeBody.blanked, addAttribute_cons]
    rw [blankedAll] at hRead hGrammar ⊢
    rw [addAttribute_cons, hGrammar]
    rcases hRead with hDiffer | hAgree
    · left
      rw [hDiffer]
      rfl
    · right
      rcases hAgree.cases with ⟨e, hFirst, hOther⟩ |
        ⟨o, other, rest, hFirst, hOther, hSame⟩
      · rw [hFirst, hOther]
      · rw [hFirst, hOther]
        exact congrArg Except.ok hSame
  case list.nil => exact .inr (congrArg Except.ok h)
  all_goals exact .inr rfl

/-
  The options in attributes without the values of strings: but for
  the texts of names they are the same, unless the names for the two
  directions differ.
-/
theorem ofAttributes_blanked
    (attributes : List Attribute) :
    WireOptions.ofAttributes attributes =
        .error (.badAttribute directionsDiffer) ∨
      (WireOptions.ofAttributes attributes).map WireOptions.unnamed =
        (WireOptions.ofAttributes
          (attributes.map Attribute.blanked)).map
            WireOptions.unnamed := by
  have hFold :
      ∀ (own : List Attribute) (o other : WireOptions),
        o.unnamed = other.unnamed →
          own.foldlM WireOptions.addAttribute o =
              .error (.badAttribute directionsDiffer) ∨
            (own.foldlM WireOptions.addAttribute o).map
                WireOptions.unnamed =
              ((own.map Attribute.blanked).foldlM
                WireOptions.addAttribute other).map
                  WireOptions.unnamed := by
    intro own
    induction own with
    | nil => exact fun o other h => .inr (congrArg Except.ok h)
    | cons a own ih =>
        intro o other h
        rw [List.map_cons, List.foldlM_cons, List.foldlM_cons]
        rcases addAttribute_blanked a h with hDiffer | hSame
        · rw [hDiffer]
          exact .inl rfl
        · cases hFirst : o.addAttribute a with
          | error reason =>
              rw [hFirst] at hSame
              rw [Action.except_map_eq_error_iff.mp hSame.symm]
              exact .inr rfl
          | ok next =>
              rw [hFirst] at hSame
              rcases Action.except_map_eq_ok_iff.mp hSame.symm with
                ⟨next', hOther, hNext⟩
              rw [hOther]
              exact ih next next' hNext.symm
  rw [WireOptions.ofAttributes, WireOptions.ofAttributes,
    List.filter_map]
  exact hFold _ _ _ rfl

end TreeWire
