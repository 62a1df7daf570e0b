import TreeWire.Proofs.Action
import TreeWire.Schema.Classification

/-
  The types that fields can have.

  A field holds a scalar or a node, a node in a box, either of
  these as an option, or a sequence.  Classification reads just
  the types that are written so, and what it gives writes the same
  type again.  It does not see how a wrapper is qualified, nor
  `::` in front of what the wrappers hold.

  Key definitions include:
    * `TypeExpr.reshaped`
    * `TypeExpr.unqualified`
    * `TypeExpr.unrooted`
    * `SupportedType`
    * `Classified.IsKnown`
    * `Classified.type`
    * `TypeExpr.ReadsExactly`

  Main statements:
    * `TypeExpr.classify_reshaped`
    * `TypeExpr.classify_eq_ok`
    * `Classified.IsKnown.classify_type`
    * `TypeExpr.classify_isOk_iff`
    * `TypeExpr.readsExactly_iff`
-/

namespace TreeWire

namespace Declaration

------------------------------------------------------------
-- Wrappers
------------------------------------------------------------

/- Whether a name is that of a wrapper. -/
def isWrapper
    (name : String) : Bool :=
  name = "Option" || name = "Vec" || name = "Box"

namespace TypeExpr

/- The type that is just a name. -/
def named
    (name : String) : TypeExpr :=
  .path false [.mk name none]

/- A type in a wrapper that is not qualified. -/
def wrapping
    (wrapper : String)
    (inner : TypeExpr) : TypeExpr :=
  .path false [.mk wrapper (some [.type inner])]

end TypeExpr

mutual

/-
  A type without the qualification of its wrappers, where what
  they hold has `::` in front of it as `root` says.
-/
def TypeExpr.reshaped
    (root : Bool → Bool) : TypeExpr → TypeExpr
  | .path rooted segments =>
      (PathSegment.lastReshaped? root segments).getD
        (.path (root rooted) segments)
  | .other => .other

/- The same for the wrapper that the last of some segments is. -/
def PathSegment.lastReshaped?
    (root : Bool → Bool) : List PathSegment → Option TypeExpr
  | [] => none
  | [segment] => PathSegment.reshaped? root segment
  | _ :: rest => PathSegment.lastReshaped? root rest

/- The same for the wrapper that a segment is. -/
def PathSegment.reshaped?
    (root : Bool → Bool) : PathSegment → Option TypeExpr
  | .mk name (some [.type inner]) =>
      if isWrapper name then
        some (.wrapping name (TypeExpr.reshaped root inner))
      else
        none
  | _ => none

end

namespace TypeExpr

/- A type without the qualification of its wrappers. -/
def unqualified
    (type : TypeExpr) : TypeExpr :=
  type.reshaped id

/- The same, and without `::` in front of what they hold. -/
def unrooted
    (type : TypeExpr) : TypeExpr :=
  type.reshaped fun _ => false

end TypeExpr

end Declaration

open Declaration

------------------------------------------------------------
-- Supported Types
------------------------------------------------------------

/- The name of an element type. -/
def ElemType.typeName : ElemType → String
  | .scalar type => type.typeName
  | .node name => name

/- The kind of a field that holds just one element. -/
def ElemType.single : ElemType → FieldKind
  | .scalar type => .scalar type
  | .node name => .nested name

/- Whether a name is that of a node type, and of no scalar type. -/
def IsNodeName
    (known : String → Bool)
    (name : String) : Prop :=
  known name = true ∧ ScalarType.ofTypeName? name = none

/- A scalar type, or the name of a node type. -/
def ElemType.IsKnown
    (known : String → Bool) : ElemType → Prop
  | .scalar _ => True
  | .node name => IsNodeName known name

/- The types that a field can have, given the names of nodes. -/
inductive SupportedType
    (known : String → Bool) : TypeExpr → Prop where
  | plain
      {elem : ElemType}
      (h : elem.IsKnown known) :
      SupportedType known (.named elem.typeName)
  | boxed
      {name : String}
      (h : IsNodeName known name) :
      SupportedType known (.wrapping "Box" (.named name))
  | optional
      {elem : ElemType}
      (h : elem.IsKnown known) :
      SupportedType known
        (.wrapping "Option" (.named elem.typeName))
  | optionalBoxed
      {name : String}
      (h : IsNodeName known name) :
      SupportedType known
        (.wrapping "Option" (.wrapping "Box" (.named name)))
  | sequence
      {elem : ElemType}
      (h : elem.IsKnown known) :
      SupportedType known (.wrapping "Vec" (.named elem.typeName))

namespace Classified

/-
  What classification can give: only a node is in a box, and a
  sequence is neither in a box nor optional.
-/
inductive IsKnown
    (known : String → Bool) : Classified → Prop where
  | single
      {elem : ElemType}
      (optional : Bool)
      (h : elem.IsKnown known) :
      IsKnown known ⟨elem.single, false, optional⟩
  | boxed
      {name : String}
      (optional : Bool)
      (h : IsNodeName known name) :
      IsKnown known ⟨.nested name, true, optional⟩
  | sequence
      {elem : ElemType}
      (h : elem.IsKnown known) :
      IsKnown known ⟨.nestedArray elem, false, false⟩

/- Write a type again, given how names and wrappers are written. -/
def written
    {α : Type}
    (named : String → α)
    (wrapping : String → α → α)
    (found : Classified) : α :=
  let plain :=
    match found.kind with
    | .scalar type => named type.typeName
    | .nested name => named name
    | .nestedArray elem => wrapping "Vec" (named elem.typeName)
  let held := if found.boxed then wrapping "Box" plain else plain
  if found.optional then wrapping "Option" held else held

/- What is in the option, if there is one. -/
def held
    (found : Classified) : Classified :=
  ⟨found.kind, found.boxed, false⟩

/- The type that has been classified. -/
def type
    (found : Classified) : TypeExpr :=
  found.written TypeExpr.named TypeExpr.wrapping

/- The same as code writes it. -/
def typeText
    (found : Classified) : String :=
  found.written id fun wrapper inner => wrapper ++ "<" ++ inner ++ ">"

end Classified

namespace Declaration

------------------------------------------------------------
-- Unqualified Wrappers
------------------------------------------------------------

theorem PathSegment.lastReshaped?_eq
    (root : Bool → Bool)
    (segments : List PathSegment) :
    lastReshaped? root segments =
      segments.getLast?.bind (reshaped? root) := by
  induction segments with
  | nil => rfl
  | cons segment rest ih =>
      cases rest with
      | nil => rfl
      | cons next rest => exact ih

namespace TypeExpr

variable {root : Bool → Bool}

/- A type is in a wrapper, or in none. -/
theorem wrapped_or_not
    (type : TypeExpr) :
    (∃ wrapper inner,
        isWrapper wrapper = true ∧
          type.wrapped? wrapper = some inner) ∨
      ∀ wrapper, isWrapper wrapper = true →
        type.wrapped? wrapper = none := by
  by_cases hIn :
    ∃ wrapper inner,
      isWrapper wrapper = true ∧ type.wrapped? wrapper = some inner
  · exact .inl hIn
  · right
    intro wrapper hWrapper
    rw [Option.eq_none_iff_forall_ne_some]
    intro inner hInner
    exact hIn ⟨wrapper, inner, hWrapper, hInner⟩

/- What is in a wrapper stands in the last segment of a path. -/
theorem wrapped?_eq_some_iff
    {wrapper : String}
    {type inner : TypeExpr} :
    type.wrapped? wrapper = some inner ↔
      ∃ rooted segments,
        type = path rooted segments ∧
          segments.getLast? =
            some (.mk wrapper (some [.type inner])) := by
  constructor
  · intro h
    cases type with
    | other => cases h
    | path rooted segments =>
        rw [wrapped?] at h
        split at h
        · rename_i hLast
          split at h
          · rename_i hName
            cases h
            rw [hName] at hLast
            exact ⟨rooted, segments, rfl, hLast⟩
          · cases h
        · cases h
  · rintro ⟨rooted, segments, rfl, hLast⟩
    rw [wrapped?, hLast]
    exact if_pos rfl

theorem wrapped?_wrapping
    (wrapper other : String)
    (inner : TypeExpr) :
    (wrapping wrapper inner).wrapped? other =
      if wrapper = other then some inner else none :=
  rfl

/- A type is in one wrapper at most. -/
theorem wrapped?_of_wrapped?
    {wrapper : String}
    {type inner : TypeExpr}
    (h : type.wrapped? wrapper = some inner)
    (other : String) :
    type.wrapped? other =
      if wrapper = other then some inner else none := by
  rcases wrapped?_eq_some_iff.mp h with ⟨_, _, rfl, hLast⟩
  rw [wrapped?, hLast]

/- A type that is just a name is in no wrapper. -/
theorem name?_of_wrapped?
    {wrapper : String}
    {type inner : TypeExpr}
    (h : type.wrapped? wrapper = some inner) :
    type.name? = none := by
  rcases wrapped?_eq_some_iff.mp h with ⟨_, _, rfl, hLast⟩
  unfold name?
  split
  · rename_i hShape
    cases hShape
    cases hLast
  · rfl

/- What a wrapper holds is reshaped in it. -/
theorem reshaped_of_wrapped?
    {wrapper : String}
    {type inner : TypeExpr}
    (hWrapper : isWrapper wrapper = true)
    (h : type.wrapped? wrapper = some inner) :
    type.reshaped root = .wrapping wrapper (inner.reshaped root) := by
  rcases wrapped?_eq_some_iff.mp h with ⟨_, _, rfl, hLast⟩
  rw [reshaped, PathSegment.lastReshaped?_eq, hLast,
    Option.bind_some, PathSegment.reshaped?, if_pos hWrapper]
  rfl

/- A path that is no wrapper stays, but for `::` in front of it. -/
theorem reshaped_of_not_wrapped
    {rooted : Bool}
    {segments : List PathSegment}
    (h :
      ∀ wrapper, isWrapper wrapper = true →
        (path rooted segments).wrapped? wrapper = none) :
    (path rooted segments).reshaped root =
      path (root rooted) segments := by
  rw [reshaped, PathSegment.lastReshaped?_eq]
  cases hLast : segments.getLast? with
  | none => rfl
  | some segment =>
      rw [Option.bind_some]
      unfold PathSegment.reshaped?
      split
      · rename_i name inner
        have hIn :
            (path rooted segments).wrapped? name = some inner :=
          wrapped?_eq_some_iff.mpr ⟨_, _, rfl, hLast⟩
        have hName : ¬ isWrapper name = true := by
          intro hWrapper
          rw [h name hWrapper] at hIn
          cases hIn
        rw [if_neg hName]
        rfl
      · rfl

/- Wrappers are found whether they are qualified or not. -/
theorem wrapped?_reshaped
    {wrapper : String}
    (hWrapper : isWrapper wrapper = true)
    (type : TypeExpr) :
    (type.reshaped root).wrapped? wrapper =
      (type.wrapped? wrapper).map (reshaped root) := by
  rcases wrapped_or_not type with ⟨other, inner, hOther, hInner⟩ |
    hNone
  · rw [reshaped_of_wrapped? hOther hInner, wrapped?_wrapping,
      wrapped?_of_wrapped? hInner]
    split <;> rfl
  · rw [hNone wrapper hWrapper]
    cases type with
    | other => rfl
    | path rooted segments =>
        rw [reshaped_of_not_wrapped hNone]
        exact hNone wrapper hWrapper

/- A name is one whether it has `::` in front of it or not. -/
theorem name?_path
    (rooted other : Bool)
    (segments : List PathSegment) :
    (path rooted segments).name? = (path other segments).name? := by
  unfold name?
  split
  · rename_i hShape
    cases hShape
    rfl
  · rename_i hShape
    split
    · rename_i hOther
      cases hOther
      exact (hShape _ _ rfl).elim
    · rfl

theorem name?_reshaped
    (type : TypeExpr) :
    (type.reshaped root).name? = type.name? := by
  rcases wrapped_or_not type with ⟨wrapper, inner, hWrapper, hInner⟩ |
    hNone
  · rw [reshaped_of_wrapped? hWrapper hInner,
      name?_of_wrapped? hInner]
    rfl
  · cases type with
    | other => rfl
    | path rooted segments =>
        rw [reshaped_of_not_wrapped hNone]
        exact name?_path _ _ segments

/- Without `::` in front, a name is all there is to its type. -/
theorem unrooted_of_name?
    {type : TypeExpr}
    {name : String}
    (h : type.name? = some name) :
    type.unrooted = named name := by
  unfold name? at h
  split at h
  · cases h
    rfl
  · cases h

------------------------------------------------------------
-- What Classification Reads
------------------------------------------------------------

theorem peel_reshaped
    {wrapper : String}
    (hWrapper : isWrapper wrapper = true)
    (type : TypeExpr) :
    (type.reshaped root).peel wrapper =
      ((type.peel wrapper).1.reshaped root, (type.peel wrapper).2) := by
  rw [peel, peel, wrapped?_reshaped hWrapper]
  cases type.wrapped? wrapper <;> rfl

theorem classifyElement_reshaped
    (known : String → Bool)
    (element : TypeExpr) :
    (element.reshaped root).classifyElement known =
      element.classifyElement known := by
  rw [classifyElement, classifyElement, name?_reshaped]

theorem classifySingle_reshaped
    (known : String → Bool)
    (optional : Bool)
    (type : TypeExpr) :
    (type.reshaped root).classifySingle known optional =
      type.classifySingle known optional := by
  rw [classifySingle, classifySingle, peel_reshaped rfl]
  dsimp only
  rw [name?_reshaped]

/-
  Classification does not see how wrappers are qualified, nor
  whether there is `::` in front of what they hold.
-/
theorem classify_reshaped
    (known : String → Bool)
    (type : TypeExpr) :
    (type.reshaped root).classify known = type.classify known := by
  rw [classify, classify, peel_reshaped rfl]
  dsimp only
  rw [wrapped?_reshaped rfl]
  cases (type.peel "Option").1.wrapped? "Vec" with
  | none => exact classifySingle_reshaped _ _ _
  | some element =>
      dsimp only [Option.map_some]
      rw [classifyElement_reshaped]

end TypeExpr

end Declaration

------------------------------------------------------------
-- What Classification Gives
------------------------------------------------------------

namespace ScalarType

theorem ofTypeName?_typeName
    (type : ScalarType) :
    ofTypeName? type.typeName = some type := by
  cases type <;> decide

theorem typeName_of_ofTypeName?
    {name : String}
    {type : ScalarType}
    (h : ofTypeName? name = some type) :
    type.typeName = name := by
  simpa using List.find?_some h

end ScalarType

namespace Declaration

namespace TypeExpr

variable {known : String → Bool} {type : TypeExpr}

/- A type is what was peeled, and again in its wrapper if in one. -/
theorem unrooted_peel
    (wrapper : String)
    (hWrapper : isWrapper wrapper = true) :
    type.unrooted =
      if (type.peel wrapper).2 then
        wrapping wrapper (type.peel wrapper).1.unrooted
      else
        (type.peel wrapper).1.unrooted := by
  rw [peel]
  cases hInner : type.wrapped? wrapper with
  | none => rfl
  | some inner => exact reshaped_of_wrapped? hWrapper hInner

theorem classifyElement_eq_ok
    {elem : ElemType}
    (h : type.classifyElement known = .ok elem) :
    elem.IsKnown known ∧ type.unrooted = named elem.typeName := by
  rw [classifyElement] at h
  split at h
  · cases h
  · rename_i name hName
    rw [unrooted_of_name? hName]
    split at h
    · rename_i scalar hScalar
      cases h
      refine ⟨trivial, ?_⟩
      rw [ElemType.typeName,
        ScalarType.typeName_of_ofTypeName? hScalar]
    · rename_i hNone
      split at h
      · rename_i hKnown
        cases h
        exact ⟨⟨hKnown, hNone⟩, rfl⟩
      · cases h

theorem classifySingle_eq_ok
    {optional : Bool}
    {found : Classified}
    (h : type.classifySingle known optional = .ok found) :
    found.IsKnown known ∧
      found.type =
        if optional then wrapping "Option" type.unrooted
        else type.unrooted := by
  rw [unrooted_peel "Box" rfl]
  rw [classifySingle] at h
  dsimp only at h
  generalize type.peel "Box" = peeled at h ⊢
  rcases peeled with ⟨inner, boxed⟩
  dsimp only at h ⊢
  split at h
  · cases h
  · rename_i name hName
    rw [unrooted_of_name? hName]
    split at h
    · rename_i scalar hScalar
      split at h
      · cases h
      · rename_i hBoxed
        cases h
        rw [eq_false_of_ne_true hBoxed,
          ← ScalarType.typeName_of_ofTypeName? hScalar]
        have hKnown : (ElemType.scalar scalar).IsKnown known :=
          trivial
        exact ⟨.single optional hKnown, rfl⟩
    · rename_i hNone
      split at h
      · rename_i hKnown
        cases h
        have hNode : (ElemType.node name).IsKnown known :=
          ⟨hKnown, hNone⟩
        refine ⟨?_, rfl⟩
        cases boxed with
        | false => exact .single optional hNode
        | true => exact .boxed optional hNode
      · cases h

/-
  What classification gives is known, and writes the type again,
  with its wrappers unqualified and no `::` in it.
-/
theorem classify_eq_ok
    {found : Classified}
    (h : type.classify known = .ok found) :
    found.IsKnown known ∧ found.type = type.unrooted := by
  rw [unrooted_peel "Option" rfl]
  rw [classify] at h
  dsimp only at h
  generalize type.peel "Option" = peeled at h ⊢
  rcases peeled with ⟨inner, optional⟩
  dsimp only at h ⊢
  split at h
  · rename_i element hElement
    split at h
    · cases h
    · rename_i hOptional
      rcases Action.except_map_eq_ok_iff.mp h with
        ⟨elem, hElem, rfl⟩
      rcases classifyElement_eq_ok hElem with ⟨hKnown, hType⟩
      refine ⟨.sequence hKnown, ?_⟩
      rw [if_neg hOptional, unrooted,
        reshaped_of_wrapped? rfl hElement]
      exact congrArg (wrapping "Vec") hType.symm
  · exact classifySingle_eq_ok h

end TypeExpr

end Declaration

------------------------------------------------------------
-- Classifying What Is Written
------------------------------------------------------------

namespace ElemType.IsKnown

variable {known : String → Bool} {elem : ElemType}

/- The name of an element reads as that element. -/
theorem classifyElement
    (h : elem.IsKnown known) :
    (TypeExpr.named elem.typeName).classifyElement known =
      .ok elem := by
  have hName :
      (TypeExpr.named elem.typeName).name? = some elem.typeName := rfl
  rw [TypeExpr.classifyElement, hName]
  cases elem with
  | scalar type =>
      dsimp only [ElemType.typeName]
      rw [ScalarType.ofTypeName?_typeName]
  | node name =>
      dsimp only [ElemType.typeName]
      rw [h.2]
      exact if_pos h.1

/- And by itself as a field that holds just that element. -/
theorem classifySingle
    (h : elem.IsKnown known)
    (optional : Bool) :
    (TypeExpr.named elem.typeName).classifySingle known optional =
      .ok ⟨elem.single, false, optional⟩ := by
  have hPeel :
      (TypeExpr.named elem.typeName).peel "Box" =
        (.named elem.typeName, false) := rfl
  have hName :
      (TypeExpr.named elem.typeName).name? = some elem.typeName := rfl
  rw [TypeExpr.classifySingle, hPeel]
  dsimp only
  rw [hName]
  cases elem with
  | scalar type =>
      dsimp only [ElemType.typeName]
      rw [ScalarType.ofTypeName?_typeName]
      rfl
  | node name =>
      dsimp only [ElemType.typeName]
      rw [h.2]
      exact if_pos h.1

end ElemType.IsKnown

namespace Declaration.TypeExpr

variable {known : String → Bool}

theorem classifySingle_box
    {name : String}
    (h : IsNodeName known name)
    (optional : Bool) :
    (wrapping "Box" (named name)).classifySingle known optional =
      .ok ⟨.nested name, true, optional⟩ := by
  have hPeel :
      (wrapping "Box" (named name)).peel "Box" =
        (named name, true) := by
    rw [peel, wrapped?_wrapping, if_pos rfl]
  have hName : (named name).name? = some name := rfl
  rw [classifySingle, hPeel]
  dsimp only
  rw [hName]
  dsimp only
  rw [h.2]
  exact if_pos h.1

/- An option is read as what it holds, unless that is wrapped. -/
theorem classify_optional
    {type : TypeExpr}
    (optional : Bool)
    (hOption : type.wrapped? "Option" = none)
    (hVec : type.wrapped? "Vec" = none) :
    (if optional then wrapping "Option" type else type).classify
        known =
      type.classifySingle known optional := by
  cases optional with
  | false =>
      have hPeel : type.peel "Option" = (type, false) := by
        rw [peel, hOption]
      rw [if_neg Bool.false_ne_true, classify, hPeel]
      dsimp only
      rw [hVec]
  | true =>
      have hPeel :
          (wrapping "Option" type).peel "Option" = (type, true) := by
        rw [peel, wrapped?_wrapping, if_pos rfl]
      rw [if_pos rfl, classify, hPeel]
      dsimp only
      rw [hVec]

end Declaration.TypeExpr

namespace Classified

variable {known : String → Bool} {found : Classified}

/- What is known is given for the type that it writes. -/
theorem IsKnown.classify_type
    (h : found.IsKnown known) :
    found.type.classify known = .ok found := by
  cases h with
  | single optional hElem =>
      rename_i elem
      have hType :
          (⟨elem.single, false, optional⟩ : Classified).type =
            if optional then .wrapping "Option" (.named elem.typeName)
            else .named elem.typeName := by
        cases elem <;> rfl
      rw [hType, TypeExpr.classify_optional optional rfl rfl]
      exact hElem.classifySingle optional
  | boxed optional hName =>
      exact (TypeExpr.classify_optional optional rfl rfl).trans
        (TypeExpr.classifySingle_box hName optional)
  | sequence hElem =>
      exact congrArg (Except.map _) hElem.classifyElement

/- The types that a field can have are those that are written. -/
theorem supportedType_iff
    {type : TypeExpr} :
    SupportedType known type ↔
      ∃ found : Classified,
        found.IsKnown known ∧ found.type = type := by
  constructor
  · intro h
    cases h with
    | plain hElem =>
        rename_i elem
        exact ⟨_, .single false hElem, by cases elem <;> rfl⟩
    | boxed hName => exact ⟨_, .boxed false hName, rfl⟩
    | optional hElem =>
        rename_i elem
        exact ⟨_, .single true hElem, by cases elem <;> rfl⟩
    | optionalBoxed hName => exact ⟨_, .boxed true hName, rfl⟩
    | sequence hElem => exact ⟨_, .sequence hElem, rfl⟩
  · rintro ⟨_, hKnown, rfl⟩
    cases hKnown with
    | single optional hElem =>
        rename_i elem
        cases optional with
        | false => cases elem <;> exact .plain hElem
        | true => cases elem <;> exact .optional hElem
    | boxed optional hName =>
        cases optional with
        | false => exact .boxed hName
        | true => exact .optionalBoxed hName
    | sequence hElem => exact .sequence hElem

end Classified

namespace Declaration.TypeExpr

variable {known : String → Bool} {type : TypeExpr}

/- Classification reads the types that a field can have. -/
theorem classify_isOk_iff :
    (∃ found, type.classify known = .ok found) ↔
      SupportedType known type.unrooted := by
  rw [Classified.supportedType_iff]
  constructor
  · rintro ⟨found, hFound⟩
    exact ⟨found, classify_eq_ok hFound⟩
  · rintro ⟨found, hKnown, hType⟩
    refine ⟨found, ?_⟩
    rw [← classify_reshaped known type]
    change type.unrooted.classify known = _
    rw [← hType]
    exact hKnown.classify_type

/- A type without `::` in it has no `::` to lose. -/
theorem unrooted_of_supported
    (h : SupportedType known type.unqualified) :
    type.unrooted = type.unqualified := by
  rcases Classified.supportedType_iff.mp h with
    ⟨found, hKnown, hType⟩
  have hFound : type.classify known = .ok found := by
    rw [← classify_reshaped known type]
    change type.unqualified.classify known = _
    rw [← hType]
    exact hKnown.classify_type
  rw [← (classify_eq_ok hFound).2, hType]

/-
  Whether classification reads a type just if a field can have it,
  and gives it back, where only the qualification of its wrappers
  does not count.
-/
def ReadsExactly
    (known : String → Bool)
    (type : TypeExpr) : Prop :=
  ((∃ found, type.classify known = .ok found) ↔
      SupportedType known type.unqualified) ∧
    ∀ found, type.classify known = .ok found →
      found.type = type.unqualified

/- A type is read exactly unless `::` in it has been overlooked. -/
theorem readsExactly_iff :
    ReadsExactly known type ↔
      (SupportedType known type.unrooted →
        type.unrooted = type.unqualified) := by
  constructor
  · rintro ⟨_, hBack⟩ hSupported
    rcases classify_isOk_iff.mpr hSupported with ⟨found, hFound⟩
    rw [← (classify_eq_ok hFound).2, hBack found hFound]
  · intro hSame
    refine ⟨?_, fun found hFound => ?_⟩
    · rw [classify_isOk_iff]
      constructor
      · intro hSupported
        rwa [← hSame hSupported]
      · intro hSupported
        rwa [unrooted_of_supported hSupported]
    · have hSupported := classify_isOk_iff.mp ⟨found, hFound⟩
      rw [← hSame hSupported]
      exact (classify_eq_ok hFound).2

end Declaration.TypeExpr

end TreeWire
