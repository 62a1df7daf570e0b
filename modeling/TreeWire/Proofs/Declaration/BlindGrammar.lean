import TreeWire.Proofs.Declaration.Blanking

/-
  The grammar does not look into strings.

  A rule of the grammar is made of parsers that do not look into
  strings, or whose results it does not use.  So it is found to be
  one of them itself by looking up how it is made; only where a
  rule looks at the next trees on its own there is something to
  show.  What an item is made of is not compared here.

  Key definitions include:
    * `Grammar.Blind`

  Main statements:
    * `blind_grammarOf`
-/

namespace TreeWire

namespace Declaration

open TreeWire.Declaration.Parser
open TreeWire.Declaration.TokenTree

-- A long rule has as many parts, which are all looked up at once.
set_option synthInstance.maxSize 10000000

------------------------------------------------------------
-- Grammars
------------------------------------------------------------

/-
  A grammar whose parsers do not look into strings.  The items that
  its parsers read may differ in the strings of their attributes.
-/
class Grammar.Blind
    (g : Grammar) : Prop where
  type : ∀ plus, Parser.Blind (g.type plus)
  expr : ∀ braces, Parser.Blind (g.expr braces)
  unary : ∀ braces, Parser.Blind (g.unary braces)
  boundary : Parser.Blind g.boundary
  pattern : Parser.Blind g.pattern
  statements : Parser.Blind g.statements
  item : Parser.Keeps g.item g.item

attribute [instance] Grammar.Blind.type Grammar.Blind.expr
  Grammar.Blind.unary Grammar.Blind.boundary Grammar.Blind.pattern
  Grammar.Blind.statements Grammar.Blind.item

section

variable {g : Grammar} [g.Blind]

------------------------------------------------------------
-- Attributes
------------------------------------------------------------

instance : Blind modSegment := by
  unfold modSegment
  infer_instance

theorem blind_modSegments
    (count : Nat) :
    Blind (modSegments count) := by
  induction count with
  | zero => exact inferInstanceAs (Blind (pure []))
  | succ count ih =>
      refine blind_bind inferInstance fun found => ?_
      rcases found with _ | ⟨name, _ | _⟩ <;> infer_instance

instance : Blind modPath := by
  have := blind_ofLength blind_modSegments
  unfold modPath
  infer_instance

instance : BlindTest fun ts => (afterLiteral? ts).any List.isEmpty :=
  ⟨fun ts => by
    rw [afterLiteral?_blankedAll]
    cases afterLiteral? ts <;> simp⟩

instance : Blind (attributeValue g) := by
  unfold attributeValue
  infer_instance

instance : Keeps (attributeContent g) (attributeContent g) := by
  unfold attributeContent
  dsimp only
  refine keeps_after inferInstance fun isUnsafe => ?_
  split
  all_goals
    refine keeps_after inferInstance fun found => ?_
    rcases found with ⟨rooted, path⟩
    infer_instance

instance : Keeps (outerAttributes g) (outerAttributes g) := by
  unfold outerAttributes
  infer_instance

instance : Keeps (innerAttributes g) (innerAttributes g) := by
  unfold innerAttributes
  infer_instance

------------------------------------------------------------
-- Types
------------------------------------------------------------

instance : Blind (constArg g) := by
  unfold constArg
  infer_instance

instance : BlindTest startsBound :=
  ⟨fun trees => by simp [startsBound]⟩

instance : Blind boundLifetimes := by
  unfold boundLifetimes
  infer_instance

instance (plus : Bool) : Blind (returnType g plus) := by
  unfold returnType
  infer_instance

section

variable {args : Parser (List GenericArg)} [Blind args]

instance (inExpr : Bool) : Blind (pathSegment args inExpr) := by
  unfold pathSegment
  dsimp only
  infer_instance

instance (inExpr : Bool) : Blind (pathRest args inExpr) := by
  unfold pathRest
  infer_instance

instance (inExpr : Bool) : Blind (pathWith args inExpr) := by
  unfold pathWith
  infer_instance

instance (segments : List PathSegment) :
    Blind (callArgs g segments) := by
  unfold callArgs
  infer_instance

instance : Blind (traitBound g args) := by
  unfold traitBound
  dsimp only
  infer_instance

instance : Blind (boundWith g args) := by
  unfold boundWith
  infer_instance

instance {stop : List TokenTree → Bool} [BlindTest stop] :
    Blind (boundsUntilWith g args stop) := by
  unfold boundsUntilWith
  infer_instance

instance : Blind (genericArgWith g args) := by
  unfold genericArgWith
  dsimp only
  infer_instance

end

theorem blind_genericArgsWithin
    (depth : Nat) :
    Blind (genericArgsWithin g depth) := by
  induction depth with
  | zero => exact inferInstanceAs (Blind (Parser.fail _))
  | succ depth ih =>
      unfold genericArgsWithin
      infer_instance

instance : Blind (genericArgs g) :=
  blind_ofLength blind_genericArgsWithin

instance (inExpr : Bool) : Blind (path g inExpr) := by
  unfold path
  infer_instance

instance (inExpr : Bool) : Blind (qualifiedPath g inExpr) := by
  unfold qualifiedPath
  dsimp only
  infer_instance

instance : Blind (bound g) := by
  unfold bound
  infer_instance

instance {stop : List TokenTree → Bool} [BlindTest stop] :
    Blind (boundsUntil g stop) := by
  unfold boundsUntil
  infer_instance

instance (plus : Bool) : Blind (traitSum g plus) := by
  unfold traitSum
  dsimp only
  infer_instance

instance : Blind (moreBounds g) := by
  unfold moreBounds
  dsimp only
  infer_instance

instance : Blind abi := by
  unfold abi
  infer_instance

instance : Blind (functionTypeParam g) := by
  unfold functionTypeParam
  dsimp only
  infer_instance

instance : Blind (functionType g) := by
  unfold functionType
  infer_instance

instance : Blind (parenthesizedType g) := by
  unfold parenthesizedType
  infer_instance

instance : Blind (bracketedType g) := by
  unfold bracketedType
  infer_instance

instance : BlindTest startsPath :=
  ⟨fun trees => by simp [startsPath]⟩

instance (plus lifetimes : Bool) :
    Blind (pathType g plus lifetimes) := by
  unfold pathType
  dsimp only
  refine blind_bind inferInstance fun rooted => ?_
  refine blind_bind inferInstance fun found => ?_
  rcases found with ⟨qualified, segments⟩
  infer_instance

instance (plus : Bool) : Blind (typeRule g plus) := by
  unfold typeRule
  dsimp only
  repeat' first
    | infer_instance
    | refine blind_bind inferInstance fun _ => ?_
    | refine blind_ite ?_ ?_
    | split

------------------------------------------------------------
-- Patterns
------------------------------------------------------------

instance : Blind (patternChoice g) := by
  unfold patternChoice
  infer_instance

instance : Blind (fieldPattern g) := by
  unfold fieldPattern
  dsimp only
  infer_instance

instance : BlindTest endsRangePattern :=
  ⟨fun trees => by simp [endsRangePattern]⟩

instance : Blind (rangePatternBound g) := by
  unfold rangePatternBound
  infer_instance

instance : Blind rangeMarks := by
  unfold rangeMarks
  infer_instance

instance : Blind (rangePatternRest g) := by
  unfold rangePatternRest
  infer_instance

instance : Blind (pathPattern g) := by
  unfold pathPattern
  dsimp only
  infer_instance

instance : BlindTest startsPathPattern :=
  ⟨fun trees => by simp [startsPathPattern]⟩

instance : Blind (patternRule g) := by
  unfold patternRule
  dsimp only
  infer_instance


------------------------------------------------------------
-- Expressions
------------------------------------------------------------

instance : BlindTest startsExpr :=
  ⟨fun trees => by simp [startsExpr]⟩

instance : BlindTest startsClosure :=
  ⟨fun trees => by simp [startsClosure]⟩

instance : BlindTest startsAsync :=
  ⟨fun trees => by simp [startsAsync]⟩

instance : BlindTest startsTrailer :=
  ⟨fun trees => by simp [startsTrailer]⟩

instance : Blind (block g) := by
  unfold block
  infer_instance

theorem blind_ifRest
    (count : Nat) :
    Blind (ifRest g count) := by
  induction count with
  | zero => exact inferInstanceAs (Blind (Parser.fail _))
  | succ count ih =>
      unfold ifRest
      infer_instance

instance : Blind (matchArm g) := by
  unfold matchArm
  dsimp only
  infer_instance

instance : Blind (matchArms g) := by
  unfold matchArms
  infer_instance

instance : BlindTest startsBraced :=
  ⟨fun trees => by simp [startsBraced]⟩

instance : Blind (loopOrBlock g) := by
  unfold loopOrBlock
  infer_instance

instance : Blind (braced g) := by
  have := blind_ofLength (blind_ifRest (g := g))
  unfold braced
  infer_instance

instance : Blind fieldName := by
  refine ⟨?_⟩
  rintro (_ | ⟨name | _ | _ | lit | _, trees⟩)
  case cons.ident =>
    rw [blankedAll, blanked, fieldName, fieldName]
    split
    · exact .error _
    · exact .ok trees rfl
  case cons.literal =>
    cases lit with
    | int => exact .ok trees rfl
    | _ => exact .error _
  all_goals exact .error _

instance : Blind (fieldValue g) := by
  unfold fieldValue
  infer_instance

instance (braces : Bool) : Blind (pathExpr g braces) := by
  unfold pathExpr
  dsimp only
  infer_instance

instance : Blind (closureParam g) := by
  unfold closureParam
  infer_instance

instance (braces : Bool) : Blind (closure g braces) := by
  unfold closure
  infer_instance

instance : Blind (arrayElements g) := by
  unfold arrayElements
  infer_instance

instance (braces : Bool) : Blind (optionalValue g braces) := by
  unfold optionalValue
  infer_instance

instance : BlindTest startsPathExpr :=
  ⟨fun trees => by
    simp [startsPathExpr, test_blankedAll startsPath]⟩

instance (braces : Bool) : BlindTest (endsRange braces) :=
  ⟨fun trees => by
    simp [endsRange, test_blankedAll startsTrailer]⟩

instance (braces closed : Bool) : Blind (rangeEnd g braces closed) := by
  unfold rangeEnd
  infer_instance

instance (braces : Bool) : Blind (atom g braces) := by
  unfold atom
  dsimp only
  infer_instance


instance : Blind (trailer g) := by
  unfold trailer
  dsimp only
  repeat' first
    | infer_instance
    | refine blind_bind inferInstance fun _ => ?_
    | refine blind_ite ?_ ?_
  refine blind_bind (blind_sees ?_) fun _ => inferInstance
  rintro (_ | ⟨_ | _ | _ | lit | _, trees⟩)
  case cons.literal => cases lit <;> rfl
  all_goals rfl

instance : Blind (trailers g) := by
  unfold trailers
  infer_instance

instance (braces : Bool) : Blind (unaryRule g braces) := by
  unfold unaryRule
  dsimp only
  infer_instance

theorem operator?_blankedAll
    (trees : List TokenTree) :
    operator? (blankedAll trees) = operator? trees := by
  simp [operator?]

instance : Blind (castType g) := by
  unfold castType
  infer_instance

theorem blind_operations
    (braces compared ranged : Bool)
    (count : Nat) :
    Blind (operations g braces compared ranged count) := by
  induction count generalizing compared ranged with
  | zero => exact inferInstanceAs (Blind (pure ()))
  | succ count ih =>
      have hNext : Blind fun trees => .ok (operator? trees, trees) := by
        refine ⟨fun trees => ?_⟩
        rw [operator?_blankedAll]
        exact .ok trees rfl
      refine blind_bind hNext fun next => ?_
      rcases next with _ | ⟨marks, kind⟩ <;> infer_instance

instance (braces : Bool) : Blind (operationsAfter g braces) :=
  blind_ofLength (blind_operations braces false false)

instance (braces : Bool) : Blind (exprRule g braces) := by
  unfold exprRule
  infer_instance

instance : Blind (boundaryRule g) := by
  unfold boundaryRule
  infer_instance

------------------------------------------------------------
-- Parameters and Conditions
------------------------------------------------------------

instance : Blind lifetimeSum := by
  unfold lifetimeSum
  infer_instance

instance : Blind (genericParam g) := by
  unfold genericParam
  infer_instance

instance : Blind (generics g) := by
  unfold generics
  infer_instance

instance : BlindTest endsWhere :=
  ⟨fun trees => by simp [endsWhere]⟩

instance : Blind (wherePredicate g) := by
  unfold wherePredicate
  infer_instance

instance : Blind (whereClause g) := by
  unfold whereClause
  infer_instance

------------------------------------------------------------
-- Items
------------------------------------------------------------

theorem isScope_blankedAll
    (trees : List TokenTree) :
    isScope (blankedAll trees) = isScope trees := by
  rcases trees with _ | ⟨_ | _ | _ | _ | _, _ | ⟨tree, trees⟩⟩ <;>
    rfl

instance : Blind visibility := by
  have hHead :
      Agrees (fun next other => other = next.map blanked)
        (fun trees => .ok (trees.head?, trees))
        (fun trees => .ok (trees.head?, trees)) := by
    rintro (_ | ⟨tree, trees⟩)
    · exact .ok [] rfl
    · exact .ok (tree :: trees) rfl
  have hWord : Blind (word? "pub") := inferInstance
  refine blind_bind hWord fun isPub => blind_ite ?_ inferInstance
  refine ⟨agrees_bind hHead fun next _ hSame => ?_⟩
  subst hSame
  rcases next with _ | _ | _ | _ | _ | ⟨delimiter, inner⟩
  case some.group =>
    cases delimiter with
    | parenthesis =>
        simp only [Option.map_some, blanked, isScope_blankedAll,
          seesWord_blankedAll]
        exact Blind.agrees
    | _ => exact Blind.agrees
  all_goals exact Blind.agrees

instance : Keeps (namedField g) (namedField g) := by
  unfold namedField
  dsimp only
  infer_instance

instance : Keeps (tupleField g) (tupleField g) := by
  unfold tupleField
  infer_instance

instance : Keeps (namedFields g) (namedFields g) := by
  unfold namedFields
  infer_instance

instance : Keeps (tupleFields g) (tupleFields g) := by
  unfold tupleFields
  infer_instance

instance : Keeps (structFields g) (structFields g) := by
  unfold structFields
  infer_instance

instance (attributes others : List Attribute) :
    Keeps (structDecl g attributes) (structDecl g others) := by
  unfold structDecl
  infer_instance

instance : Keeps (variantDecl g) (variantDecl g) := by
  unfold variantDecl
  dsimp only
  infer_instance

instance (attributes others : List Attribute) :
    Keeps (enumDecl g attributes) (enumDecl g others) := by
  unfold enumDecl
  infer_instance

instance : Blind (selfParam g) := by
  unfold selfParam
  dsimp only
  infer_instance

instance : BlindTest startsSelf :=
  ⟨fun trees => by
    simp [startsSelf, ← apply_ite blankedAll, -List.drop_one]⟩

instance : Blind (functionParam g) := by
  unfold functionParam
  infer_instance

instance : BlindTest startsFunction :=
  ⟨fun trees => by
    simp [startsFunction, ← apply_ite blankedAll, -List.drop_one]⟩

instance : Blind (signature g) := by
  unfold signature
  infer_instance

instance : Blind (function g) := by
  unfold function
  infer_instance

instance : Blind (constItem g) := by
  unfold constItem
  dsimp only
  infer_instance

instance : Blind (staticItem g) := by
  unfold staticItem
  dsimp only
  infer_instance

instance : Blind (typeAlias g) := by
  unfold typeAlias
  dsimp only
  infer_instance

/- After a group, only the kind of its brackets counts. -/
theorem blind_anyGroup
    {f : Delimiter × List TokenTree → Parser Unit}
    (h :
      ∀ delimiter inner,
        Agrees (· = ·) (f (delimiter, inner))
          (f (delimiter, blankedAll inner))) :
    Blind (anyGroup >>= f) :=
  ⟨agrees_bind agrees_anyGroup fun found _ hSame =>
    hSame ▸ h found.1 found.2⟩

instance : Blind macroItem := by
  unfold macroItem
  dsimp only
  refine blind_bind inferInstance fun _ =>
    blind_bind inferInstance fun _ => blind_bind inferInstance fun _ =>
      blind_ite (blind_bind inferInstance fun _ => ?_) ?_
  all_goals
    exact blind_anyGroup fun _ _ => Blind.agrees

instance : Blind macroTopItem := by
  unfold macroTopItem
  dsimp only
  refine blind_bind inferInstance fun _ =>
    blind_bind inferInstance fun _ => blind_bind inferInstance fun _ =>
      blind_ite (blind_bind inferInstance fun _ => ?_) ?_
  all_goals
    exact blind_anyGroup fun _ _ => Blind.agrees

instance : Blind macroDecl := by
  unfold macroDecl
  dsimp only
  infer_instance

instance : Blind (memberItem g) := by
  unfold memberItem
  dsimp only
  infer_instance

instance : Blind (memberItems g) := by
  unfold memberItems
  infer_instance

instance : Blind (traitItem g) := by
  unfold traitItem
  dsimp only
  infer_instance

instance : BlindTest startsGenerics :=
  ⟨fun trees => by simp [startsGenerics]⟩

instance : Blind (implItem g) := by
  unfold implItem
  dsimp only
  infer_instance

instance : Blind (moduleItem g) := by
  unfold moduleItem
  dsimp only
  infer_instance

instance : Blind asName := by
  unfold asName
  infer_instance

theorem blind_importTree
    (depth : Nat) :
    Blind (importTree depth) := by
  induction depth with
  | zero => exact inferInstanceAs (Blind (Parser.fail _))
  | succ depth ih =>
      unfold importTree
      dsimp only
      infer_instance

instance : Blind importItem := by
  have : Blind fun trees => importTree (sizeAll trees + 1) trees := by
    refine ⟨fun trees => ?_⟩
    rw [sizeAll_blankedAll]
    exact (blind_importTree _).agrees trees
  unfold importItem
  infer_instance

instance : Blind (foreignItem g) := by
  unfold foreignItem
  dsimp only
  infer_instance

instance (visible : Bool) : Blind (otherItem g visible) := by
  have hNext :
      Agrees (fun next other => other = blankedAll next)
        (fun trees => .ok (trees.drop 1, trees))
        (fun trees => .ok (trees.drop 1, trees)) := by
    intro trees
    dsimp only
    rw [drop_blankedAll]
    exact .ok trees rfl
  refine ⟨agrees_bind hNext fun next _ hSame => ?_⟩
  subst hSame
  simp only [seesOneOf_blankedAll, seesWord_blankedAll]
  exact Keeps.agrees

instance (attributes others : List Attribute) :
    Keeps (itemAfter g attributes) (itemAfter g others) := by
  unfold itemAfter
  infer_instance

instance : Keeps (itemRule g) (itemRule g) := by
  unfold itemRule
  infer_instance

instance : BlindTest startsConstValue :=
  ⟨fun trees => by simp [startsConstValue]⟩

instance : BlindTest startsItem :=
  ⟨fun trees => by
    simp [startsItem, test_blankedAll startsConstValue]⟩

instance : Blind (letStatement g) := by
  unfold letStatement
  dsimp only
  infer_instance

instance : Blind macroStart := by
  refine ⟨fun trees => ?_⟩
  unfold macroStart
  rcases (Blind.agrees (p := modPath) trees).cases with
    ⟨e, hPath, hOther⟩ | ⟨path, _, rest, hPath, hOther, _⟩
  · rw [hPath, hOther]
    exact .ok trees rfl
  · rw [hPath, hOther]
    simp only [drop_blankedAll, seesPunct_blankedAll,
      seesIdent_blankedAll, seesWord_blankedAll, seesGroup_blankedAll]
    repeat' split
    all_goals exact .ok trees rfl

instance : Blind (statement g) := by
  refine ⟨agrees_bind Keeps.agrees fun attributes others _ =>
    agrees_bind Blind.agrees fun start _ hSame => ?_⟩
  have hItem :
      Agrees (· = ·)
        (do
          let _ ← itemAfter g attributes
          pure false)
        (do
          let _ ← itemAfter g others
          pure false) :=
    agrees_bind Keeps.agrees fun _ _ _ => agrees_pure rfl
  subst hSame
  cases start with
  | braced => exact Blind.agrees
  | item => exact hItem
  | none =>
      refine agrees_bind (Blind.agrees (p := sees _)) fun _ _ hSame =>
        hSame ▸ agrees_ite Blind.agrees ?_
      exact agrees_bind (Blind.agrees (p := sees _)) fun _ _ hSame =>
        hSame ▸ agrees_ite hItem Blind.agrees

instance : Blind (statementsRule g) := by
  unfold statementsRule
  infer_instance

instance : Grammar.Blind Grammar.exhausted where
  type _ := inferInstanceAs (Blind (Parser.fail _))
  expr _ := inferInstanceAs (Blind (Parser.fail _))
  unary _ := inferInstanceAs (Blind (Parser.fail _))
  boundary := inferInstanceAs (Blind (Parser.fail _))
  pattern := inferInstanceAs (Blind (Parser.fail _))
  statements := inferInstanceAs (Blind (Parser.fail _))
  item := inferInstanceAs (Keeps (Parser.fail _) (Parser.fail _))

end

/- No grammar looks into strings, however deep it reads. -/
theorem blind_grammarOf
    (depth : Nat) :
    (grammarOf depth).Blind := by
  induction depth with
  | zero => exact inferInstanceAs (Grammar.exhausted).Blind
  | succ depth ih =>
      exact
        { type := fun plus =>
            inferInstanceAs (Blind (typeRule _ plus))
          expr := fun braces =>
            inferInstanceAs (Blind (exprRule _ braces))
          unary := fun braces =>
            inferInstanceAs (Blind (unaryRule _ braces))
          boundary := inferInstanceAs (Blind (boundaryRule _))
          pattern := inferInstanceAs (Blind (patternRule _))
          statements := inferInstanceAs (Blind (statementsRule _))
          item := inferInstanceAs (Keeps (itemRule _) (itemRule _)) }

instance (trees : List TokenTree) : (grammarFor trees).Blind :=
  blind_grammarOf _

/- The strings do not count for how deep a grammar has to be. -/
theorem grammarFor_blankedAll
    (trees : List TokenTree) :
    grammarFor (blankedAll trees) = grammarFor trees := by
  rw [grammarFor, grammarFor, sizeAll_blankedAll]

end Declaration

end TreeWire
