import TreeWire.Declaration.SourceFile
import TreeWire.Proofs.Action

/-
  The names of items are identifiers.

  Whatever a parser does before it returns an item, the name of
  the item is the text of an identifier that was read.  So every
  item of a source is named by a word, which may have the mark of
  a raw identifier.

  Key definitions include:
    * `Parser.Gives`
    * `Item.name?`
    * `IdentifierText`

  Main statements:
    * `gives_itemRule`
    * `identifierText_of_items?`
-/

namespace TreeWire

namespace Declaration

open TreeWire.Declaration.Parser
open TreeWire.Declaration.TokenTree

------------------------------------------------------------
-- Results of Parsers
------------------------------------------------------------

/- Whether all results of a parser have a property. -/
def Parser.Gives
    {α : Type}
    (P : α → Prop)
    (p : Parser α) : Prop :=
  ∀ trees a rest, p trees = .ok (a, rest) → P a

section

variable {α β : Type} {P : α → Prop}

theorem gives_pure
    {a : α}
    (h : P a) :
    Gives P (pure a : Parser α) := by
  intro trees b rest hPure
  cases hPure
  exact h

/- What a parser does first says nothing of its results. -/
theorem gives_bind
    {p : Parser β}
    {f : β → Parser α}
    (h : ∀ b, Gives P (f b)) :
    Gives P (p >>= f) := by
  intro trees a rest hBind
  rcases Action.except_bind_eq_ok_iff.mp hBind with
    ⟨⟨b, between⟩, _, hAfter⟩
  exact h b between a rest hAfter

theorem gives_ite
    {test : Prop}
    [Decidable test]
    {p q : Parser α}
    (hThen : Gives P p)
    (hElse : Gives P q) :
    Gives P (if test then p else q) := by
  split
  · exact hThen
  · exact hElse

theorem gives_repeatWithin
    {p : Parser (Option α)}
    (h : Gives (fun found => ∀ a ∈ found, P a) p)
    (count : Nat) :
    Gives (fun found => ∀ a ∈ found, P a) (repeatWithin p count) := by
  induction count with
  | zero => exact gives_pure nofun
  | succ count ih =>
      intro trees found rest hRun
      rcases Action.except_bind_eq_ok_iff.mp hRun with
        ⟨⟨first, between⟩, hFirst, hAfter⟩
      have hOwn := h trees first between hFirst
      cases first with
      | none =>
          cases hAfter
          exact nofun
      | some a =>
          rcases Action.except_bind_eq_ok_iff.mp hAfter with
            ⟨⟨later, last⟩, hLater, hPure⟩
          cases hPure
          rw [List.forall_mem_cons]
          exact ⟨hOwn a rfl, ih between later rest hLater⟩

/- A property of all results is one of all that are collected. -/
theorem gives_manyWhile
    {p : Parser α}
    (test : List TokenTree → Bool)
    (h : Gives P p) :
    Gives (fun found => ∀ a ∈ found, P a) (manyWhile test p) := by
  intro trees found rest hRun
  refine gives_repeatWithin ?_ _ trees found rest hRun
  refine gives_bind fun sees => gives_ite ?_ (gives_pure nofun)
  intro trees found rest hRun
  rcases Action.except_bind_eq_ok_iff.mp hRun with
    ⟨⟨a, between⟩, hOne, hPure⟩
  cases hPure
  intro b hMem
  cases hMem
  exact h trees a rest hOne

end

------------------------------------------------------------
-- Names of Items
------------------------------------------------------------

/- The name of a structure or of an enumeration. -/
def Item.name? : Item → Option String
  | .structDecl decl => some decl.name
  | .enumDecl decl => some decl.name
  | .other => none

/- Whether a name is the text of some identifier. -/
def IdentifierText
    (name : String) : Prop :=
  ∃ ident : Identifier, ident.text = name

/- Whether an item that has a name is named by an identifier. -/
def Item.IsNamed
    (item : Item) : Prop :=
  ∀ name, item.name? = some name → IdentifierText name

theorem gives_structDecl
    (g : Grammar)
    (attributes : List Attribute) :
    Gives Item.IsNamed (structDecl g attributes) := by
  refine gives_bind fun _ => gives_bind fun name => gives_bind fun _ =>
    gives_bind fun _ => gives_pure ?_
  rintro _ ⟨⟩
  exact ⟨name, rfl⟩

theorem gives_enumDecl
    (g : Grammar)
    (attributes : List Attribute) :
    Gives Item.IsNamed (enumDecl g attributes) := by
  refine gives_bind fun _ => gives_bind fun name => gives_bind fun _ =>
    gives_bind fun _ => gives_bind fun _ => gives_pure ?_
  rintro _ ⟨⟩
  exact ⟨name, rfl⟩

/- An item is named by an identifier, or has no name. -/
theorem gives_itemRule
    (g : Grammar) :
    Gives Item.IsNamed (itemRule g) := by
  refine gives_bind fun attributes => gives_bind fun _ =>
    gives_bind fun _ => gives_ite (gives_structDecl g attributes) ?_
  refine gives_bind fun _ =>
    gives_ite (gives_enumDecl g attributes) ?_
  exact gives_bind fun _ => gives_pure nofun

/- The names of the items of a source are identifiers. -/
theorem identifierText_of_items?
    {source name : String}
    {items : List Item}
    {item : Item}
    (hItems : items? source = some items)
    (hMem : item ∈ items)
    (hName : item.name? = some name) :
    IdentifierText name := by
  unfold items? at hItems
  rcases Option.bind_eq_some_iff.mp hItems with ⟨trees, _, hTrees⟩
  split at hTrees
  · rename_i found hFound
    cases hTrees
    have hAll :
        Gives (fun found => ∀ item ∈ found, item.IsNamed)
          (sourceItems (grammarFor trees)) :=
      gives_bind fun _ => gives_manyWhile _ (gives_itemRule _)
    exact hAll trees items [] hFound item hMem name hName
  · cases hTrees

end Declaration

end TreeWire
