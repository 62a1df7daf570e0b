import TreeWire.Proofs.Json.Grammar
import TreeWire.Source.Scanner

/-
  The grammar of JSON as an automaton that takes one token at
  a time.

  A point of the automaton is what the grammar allows next
  together with the open containers.  An advance goes from
  point to point over the bytes of one token, and a run is a
  sequence of advances.  The runs from the first point to the
  last one are the documents.

  Nothing limits how many containers are open here.

  Key definitions include:
    * `Point`
    * `Advance`
    * `Run`

  Main statements:
    * `Advance.fits`
    * `Grammar.Value.run`
    * `Advance.completes`
    * `run_iff_document`
-/

namespace TreeWire

open Grammar

------------------------------------------------------------
-- Points
------------------------------------------------------------

/- What is allowed next, and the open containers. -/
structure Point where
  stage : Stage
  frames : List Frame

namespace Point

/- The point before a document. -/
def first : Point :=
  ⟨.topValue, []⟩

/- The point after a document. -/
def last : Point :=
  ⟨.topDone, []⟩

/- The point after a value in the open containers. -/
def after
    (frames : List Frame) : Point :=
  ⟨Scanner.stageAfter frames, frames⟩

/- What is allowed next agrees with the innermost container. -/
def Fits
    (p : Point) : Prop :=
  match p.stage with
  | .topValue | .topDone =>
      p.frames = []
  | .firstKey | .key | .memberValue | .afterMember =>
      p.frames.head? = some .object
  | .firstElement | .element | .afterElement =>
      p.frames.head? = some .array

theorem after_fits
    (frames : List Frame) :
    (after frames).Fits := by
  rcases frames with _ | ⟨_ | _, frames⟩ <;> rfl

end Point

------------------------------------------------------------
-- Advances
------------------------------------------------------------

/- Bytes that may stand before a value. -/
inductive ValueLead : Stage → List UInt8 → Prop where
  | top
      {blanks : List UInt8}
      (hBlanks : Blanks blanks) :
      ValueLead .topValue blanks
  | member
      {blanks : List UInt8}
      (hBlanks : Blanks blanks) :
      ValueLead .memberValue blanks
  | first
      {blanks : List UInt8}
      (hBlanks : Blanks blanks) :
      ValueLead .firstElement blanks
  | element
      {blanks : List UInt8}
      (hBlanks : Blanks blanks) :
      ValueLead .element blanks
  | more
      {before after : List UInt8}
      (hBefore : Blanks before)
      (hAfter : Blanks after) :
      ValueLead .afterElement (before ++ 0x2c :: after)

/- Bytes that may stand before a key. -/
inductive KeyLead : Stage → List UInt8 → Prop where
  | first
      {blanks : List UInt8}
      (hBlanks : Blanks blanks) :
      KeyLead .firstKey blanks
  | key
      {blanks : List UInt8}
      (hBlanks : Blanks blanks) :
      KeyLead .key blanks
  | more
      {before after : List UInt8}
      (hBefore : Blanks before)
      (hAfter : Blanks after) :
      KeyLead .afterMember (before ++ 0x2c :: after)

/- From point to point over the bytes of one token. -/
inductive Advance :
    Point → List UInt8 → Token → Point → Prop where
  | scalar
      {p : Point}
      {lead bytes : List UInt8}
      {lit : Literal}
      (hLead : ValueLead p.stage lead)
      (hScalar : Scalar bytes lit) :
      Advance p (lead ++ bytes) (.literal lit) (.after p.frames)
  | openArray
      {p : Point}
      {lead : List UInt8}
      (hLead : ValueLead p.stage lead) :
      Advance p (lead ++ [0x5b]) .arrayOpen
        ⟨.firstElement, .array :: p.frames⟩
  | openObject
      {p : Point}
      {lead : List UInt8}
      (hLead : ValueLead p.stage lead) :
      Advance p (lead ++ [0x7b]) .objectOpen
        ⟨.firstKey, .object :: p.frames⟩
  | closeArray
      {p : Point}
      {blanks : List UInt8}
      (hStage : p.stage = .firstElement ∨ p.stage = .afterElement)
      (hBlanks : Blanks blanks) :
      Advance p (blanks ++ [0x5d]) .arrayClose
        (.after p.frames.tail)
  | closeObject
      {p : Point}
      {blanks : List UInt8}
      (hStage : p.stage = .firstKey ∨ p.stage = .afterMember)
      (hBlanks : Blanks blanks) :
      Advance p (blanks ++ [0x7d]) .objectClose
        (.after p.frames.tail)
  | key
      {p : Point}
      {lead quoted blanks : List UInt8}
      {name : String}
      (hLead : KeyLead p.stage lead)
      (hKey : Quoted quoted name)
      (hBlanks : Blanks blanks) :
      Advance p (lead ++ quoted ++ blanks ++ [0x3a]) (.key name)
        ⟨.memberValue, p.frames⟩

/- An advance keeps points fitting. -/
theorem Advance.fits
    {p p' : Point}
    {bytes : List UInt8}
    {t : Token}
    (h : Advance p bytes t p')
    (hFits : p.Fits) :
    p'.Fits := by
  cases h with
  | scalar => exact Point.after_fits _
  | openArray => rfl
  | openObject => rfl
  | closeArray => exact Point.after_fits _
  | closeObject => exact Point.after_fits _
  | key hLead =>
      rcases p with ⟨stage, frames⟩
      cases hLead <;> exact hFits

------------------------------------------------------------
-- Runs
------------------------------------------------------------

/- Advances one after another. -/
inductive Run :
    Point → List UInt8 → List Token → Point → Prop where
  | nil
      (p : Point) :
      Run p [] [] p
  | cons
      {p p₁ p' : Point}
      {used bytes : List UInt8}
      {t : Token}
      {ts : List Token}
      (hFirst : Advance p used t p₁)
      (hRest : Run p₁ bytes ts p') :
      Run p (used ++ bytes) (t :: ts) p'

namespace Run

theorem single
    {p p' : Point}
    {bytes : List UInt8}
    {t : Token}
    (h : Advance p bytes t p') :
    Run p bytes [t] p' := by
  have hRun := Run.cons h (.nil p')
  rwa [List.append_nil] at hRun

theorem append
    {p p₁ p' : Point}
    {bytes more : List UInt8}
    {ts us : List Token}
    (h : Run p bytes ts p₁)
    (hMore : Run p₁ more us p') :
    Run p (bytes ++ more) (ts ++ us) p' := by
  induction h with
  | nil => exact hMore
  | cons hFirst _ ih =>
      rw [List.append_assoc]
      exact .cons hFirst (ih hMore)

theorem fits
    {p p' : Point}
    {bytes : List UInt8}
    {ts : List Token}
    (h : Run p bytes ts p')
    (hFits : p.Fits) :
    p'.Fits := by
  induction h with
  | nil => exact hFits
  | cons hFirst _ ih => exact ih (hFirst.fits hFits)

end Run

------------------------------------------------------------
-- Values Run
------------------------------------------------------------

namespace Grammar

mutual

/- The tokens of a value run over its bytes. -/
theorem Value.run :
    {bytes : List UInt8} →
    {j : Json} →
    {stage : Stage} →
    {lead : List UInt8} →
    (frames : List Frame) →
    Value bytes j →
    ValueLead stage lead →
    Run ⟨stage, frames⟩ (lead ++ bytes) j.tokens (.after frames)
  | _, _, _, _, _, .scalar hScalar, hLead =>
      .single (.scalar hLead hScalar)
  | _, _, stage, _, frames, .emptyArray hBlanks, hLead => by
      have hOpen : Run ⟨stage, frames⟩ _ _ _ :=
        .single (.openArray hLead)
      have hClose :
          Run ⟨.firstElement, .array :: frames⟩ _ _ _ :=
        .single (.closeArray (.inl rfl) hBlanks)
      simpa [Json.tokens, Json.itemTokens] using
        hOpen.append hClose
  | _, _, stage, _, frames, .array hBlanks hFirst hMore, hLead => by
      have hOpen : Run ⟨stage, frames⟩ _ _ _ :=
        .single (.openArray hLead)
      have hItem :=
        hFirst.run (.array :: frames) (ValueLead.first hBlanks)
      have hRest := hMore.run frames
      simpa [Json.tokens, Json.itemTokens] using
        (hOpen.append hItem).append hRest
  | _, _, stage, _, frames, .emptyObject hBlanks, hLead => by
      have hOpen : Run ⟨stage, frames⟩ _ _ _ :=
        .single (.openObject hLead)
      have hClose : Run ⟨.firstKey, .object :: frames⟩ _ _ _ :=
        .single (.closeObject (.inl rfl) hBlanks)
      simpa [Json.tokens, Json.memberTokens] using
        hOpen.append hClose
  | _, _, stage, _, frames, .object hFirst hMore, hLead => by
      have hOpen : Run ⟨stage, frames⟩ _ _ _ :=
        .single (.openObject hLead)
      have hMember :=
        hFirst.run .firstKey (.object :: frames) [] KeyLead.first
      have hRest := hMore.run frames
      simpa [Json.tokens, Json.memberTokens] using
        (hOpen.append hMember).append hRest

theorem MoreElements.run :
    {bytes : List UInt8} →
    {items : List Json} →
    (frames : List Frame) →
    MoreElements bytes items →
    Run ⟨.afterElement, .array :: frames⟩ (bytes ++ [0x5d])
      (Json.itemTokens items ++ [.arrayClose]) (.after frames)
  | _, _, _, .nil hBlanks =>
      .single (.closeArray (.inr rfl) hBlanks)
  | _, _, frames, .cons hBefore hAfter hItem hMore => by
      have hFirst :=
        hItem.run (.array :: frames) (.more hBefore hAfter)
      have hRest := hMore.run frames
      simpa [Json.itemTokens] using hFirst.append hRest

theorem Member.run :
    {bytes : List UInt8} →
    {key : String} →
    {value : Json} →
    (stage : Stage) →
    (frames : List Frame) →
    (lead : List UInt8) →
    Member bytes key value →
    (∀ {blanks}, Blanks blanks → KeyLead stage (lead ++ blanks)) →
    Run ⟨stage, frames⟩ (lead ++ bytes) (.key key :: value.tokens)
      (.after frames)
  | _, _, _, stage, frames, _,
      .mk hBlanks hKey hBefore hAfter hValue, hLead => by
      have hFirst : Run ⟨stage, frames⟩ _ _ _ :=
        .single (.key (hLead hBlanks) hKey hBefore)
      have hRest := hValue.run frames (.member hAfter)
      simpa using hFirst.append hRest

theorem MoreMembers.run :
    {bytes : List UInt8} →
    {members : List (String × Json)} →
    (frames : List Frame) →
    MoreMembers bytes members →
    Run ⟨.afterMember, .object :: frames⟩ (bytes ++ [0x7d])
      (Json.memberTokens members ++ [.objectClose])
      (.after frames)
  | _, _, _, .nil hBlanks =>
      .single (.closeObject (.inr rfl) hBlanks)
  | _, _, frames, @MoreMembers.cons before _ _ _ _ _ hBefore
      hMember hMore => by
      have hFirst :=
        hMember.run .afterMember (.object :: frames)
          (before ++ [0x2c]) (by
            intro blanks hBlanks
            rw [List.append_assoc]
            exact .more hBefore hBlanks)
      have hRest := hMore.run frames
      simpa [Json.memberTokens] using hFirst.append hRest

end

end Grammar

------------------------------------------------------------
-- Runs Are Documents
------------------------------------------------------------

/-
  What the open containers still demand after a value: the
  rest of each, and its closing mark.
-/
def Finishes :
    List Frame → List UInt8 → List Token → Prop
  | [], bytes, ts =>
      bytes = [] ∧ ts = []
  | .array :: frames, bytes, ts =>
      ∃ inner items rest us,
        MoreElements inner items ∧
          bytes = inner ++ 0x5d :: rest ∧
          ts = Json.itemTokens items ++ .arrayClose :: us ∧
          Finishes frames rest us
  | .object :: frames, bytes, ts =>
      ∃ inner members rest us,
        MoreMembers inner members ∧
          bytes = inner ++ 0x7d :: rest ∧
          ts = Json.memberTokens members ++ .objectClose :: us ∧
          Finishes frames rest us

/- What a point demands of the bytes and tokens to the end. -/
def Completes
    (p : Point)
    (bytes : List UInt8)
    (ts : List Token) : Prop :=
  match p.stage with
  | .topDone | .afterMember | .afterElement =>
      Finishes p.frames bytes ts
  | .topValue | .memberValue | .element =>
      ∃ blanks value j rest us,
        Blanks blanks ∧ Value value j ∧
          bytes = blanks ++ value ++ rest ∧
          ts = j.tokens ++ us ∧ Finishes p.frames rest us
  | .firstElement =>
      ∃ inner items rest us,
        Value (0x5b :: (inner ++ [0x5d])) (.array items) ∧
          bytes = inner ++ 0x5d :: rest ∧
          ts = Json.itemTokens items ++ .arrayClose :: us ∧
          Finishes p.frames.tail rest us
  | .firstKey =>
      ∃ inner members rest us,
        Value (0x7b :: (inner ++ [0x7d])) (.object members) ∧
          bytes = inner ++ 0x7d :: rest ∧
          ts = Json.memberTokens members ++ .objectClose :: us ∧
          Finishes p.frames.tail rest us
  | .key =>
      ∃ member key j rest us,
        Grammar.Member member key j ∧ bytes = member ++ rest ∧
          ts = .key key :: (j.tokens ++ us) ∧
          Finishes p.frames rest us

theorem completes_after
    {frames : List Frame}
    {bytes : List UInt8}
    {ts : List Token}
    (h : Completes (.after frames) bytes ts) :
    Finishes frames bytes ts := by
  rcases frames with _ | ⟨_ | _, frames⟩ <;> exact h

/- A value, and what is demanded after it. -/
theorem completes_value
    {p : Point}
    {lead value rest : List UInt8}
    {j : Json}
    {us : List Token}
    (hFits : p.Fits)
    (hLead : ValueLead p.stage lead)
    (hValue : Value value j)
    (hRest : Finishes p.frames rest us) :
    Completes p (lead ++ value ++ rest) (j.tokens ++ us) := by
  rcases p with ⟨stage, frames⟩
  cases hLead with
  | top hBlanks =>
      exact ⟨_, _, _, _, _, hBlanks, hValue, rfl, rfl, hRest⟩
  | member hBlanks =>
      exact ⟨_, _, _, _, _, hBlanks, hValue, rfl, rfl, hRest⟩
  | element hBlanks =>
      exact ⟨_, _, _, _, _, hBlanks, hValue, rfl, rfl, hRest⟩
  | first hBlanks =>
      rcases frames with _ | ⟨frame, frames⟩
      · cases hFits
      · cases hFits
        rcases hRest with
          ⟨inner, items, rest, us, hMore, rfl, rfl, hRest⟩
        refine ⟨lead ++ value ++ inner, j :: items, rest, us, ?_,
          ?_, ?_, hRest⟩
        · exact .array hBlanks hValue hMore
        · simp
        · simp [Json.itemTokens]
  | more hBefore hAfter =>
      rcases frames with _ | ⟨frame, frames⟩
      · cases hFits
      · cases hFits
        rcases hRest with
          ⟨inner, items, rest, us, hMore, rfl, rfl, hRest⟩
        refine ⟨_, j :: items, rest, us,
          .cons hBefore hAfter hValue hMore, ?_, ?_, hRest⟩
        · simp
        · simp [Json.itemTokens]

/- A key, and what is demanded after it. -/
theorem completes_key
    {p : Point}
    {lead quoted blanks bytes : List UInt8}
    {name : String}
    {ts : List Token}
    (hFits : p.Fits)
    (hLead : KeyLead p.stage lead)
    (hKey : Quoted quoted name)
    (hBlanks : Blanks blanks)
    (hRest : Completes ⟨.memberValue, p.frames⟩ bytes ts) :
    Completes p (lead ++ quoted ++ blanks ++ [0x3a] ++ bytes)
      (.key name :: ts) := by
  rcases hRest with
    ⟨after, value, j, rest, us, hAfter, hValue, rfl, rfl, hRest⟩
  have hMember :
      ∀ {blanks'}, Blanks blanks' →
        Grammar.Member (blanks' ++ quoted ++ blanks ++
          0x3a :: (after ++ value)) name j := fun hBlanks' =>
    .mk hBlanks' hKey hBlanks hAfter hValue
  rcases p with ⟨stage, frames⟩
  cases hLead with
  | key hLead =>
      refine ⟨_, name, j, rest, us, hMember hLead, ?_, rfl, hRest⟩
      simp
  | first hLead =>
      rcases frames with _ | ⟨frame, frames⟩
      · cases hFits
      · cases hFits
        rcases hRest with
          ⟨inner, members, rest, us, hMore, rfl, rfl, hRest⟩
        refine ⟨_, (name, j) :: members, rest, us,
          .object (hMember hLead) hMore, ?_, ?_, hRest⟩
        · simp
        · simp [Json.memberTokens]
  | more hBefore hLead =>
      rcases frames with _ | ⟨frame, frames⟩
      · cases hFits
      · cases hFits
        rcases hRest with
          ⟨inner, members, rest, us, hMore, rfl, rfl, hRest⟩
        refine ⟨_, (name, j) :: members, rest, us,
          .cons hBefore (hMember hLead) hMore, ?_, ?_, hRest⟩
        · simp
        · simp [Json.memberTokens]

/- What a point demands follows from the next one. -/
theorem Advance.completes
    {p p' : Point}
    {used bytes : List UInt8}
    {t : Token}
    {ts : List Token}
    (h : Advance p used t p')
    (hFits : p.Fits)
    (hNext : Completes p' bytes ts) :
    Completes p (used ++ bytes) (t :: ts) := by
  cases h with
  | scalar hLead hScalar =>
      exact completes_value hFits hLead (.scalar hScalar)
        (completes_after hNext)
  | openArray hLead =>
      rcases hNext with
        ⟨inner, items, rest, us, hValue, rfl, rfl, hRest⟩
      simpa [Json.tokens] using
        completes_value hFits hLead hValue hRest
  | openObject hLead =>
      rcases hNext with
        ⟨inner, members, rest, us, hValue, rfl, rfl, hRest⟩
      simpa [Json.tokens] using
        completes_value hFits hLead hValue hRest
  | closeArray hStage hBlanks =>
      have hRest := completes_after hNext
      rcases p with ⟨stage, frames⟩
      rcases hStage with rfl | rfl
      · exact ⟨_, [], bytes, ts, .emptyArray hBlanks, by simp,
          rfl, hRest⟩
      · rcases frames with _ | ⟨frame, frames⟩
        · cases hFits
        · cases hFits
          exact ⟨_, [], bytes, ts, .nil hBlanks, by simp, rfl,
            hRest⟩
  | closeObject hStage hBlanks =>
      have hRest := completes_after hNext
      rcases p with ⟨stage, frames⟩
      rcases hStage with rfl | rfl
      · exact ⟨_, [], bytes, ts, .emptyObject hBlanks, by simp,
          rfl, hRest⟩
      · rcases frames with _ | ⟨frame, frames⟩
        · cases hFits
        · cases hFits
          exact ⟨_, [], bytes, ts, .nil hBlanks, by simp, rfl,
            hRest⟩
  | key hLead hKey hBlanks =>
      exact completes_key hFits hLead hKey hBlanks hNext

theorem Run.completes
    {p : Point}
    {bytes : List UInt8}
    {ts : List Token}
    (h : Run p bytes ts .last)
    (hFits : p.Fits) :
    Completes p bytes ts := by
  generalize hLast : Point.last = p' at h
  induction h with
  | nil =>
      subst hLast
      exact ⟨rfl, rfl⟩
  | cons hFirst _ ih =>
      exact hFirst.completes hFits (ih (hFirst.fits hFits) hLast)

/-
  The runs from the first point to the last, with blanks after
  them, are the documents.
-/
theorem run_iff_document
    {bytes : List UInt8}
    {ts : List Token} :
    (∃ used blanks,
        bytes = used ++ blanks ∧ Blanks blanks ∧
          Run .first used ts .last) ↔
      ∃ j, Document bytes j ∧ ts = j.tokens := by
  constructor
  · intro hParts
    rcases hParts with ⟨used, blanks, rfl, hBlanks, hRun⟩
    rcases hRun.completes rfl with
      ⟨before, value, j, rest, us, hBefore, hValue, rfl, rfl,
        rfl, rfl⟩
    refine ⟨j, ?_, by simp⟩
    rw [List.append_nil]
    exact .mk hBefore hValue hBlanks
  · intro hParts
    rcases hParts with ⟨j, hDocument, rfl⟩
    cases hDocument with
    | mk hBefore hValue hAfter =>
        exact ⟨_, _, rfl, hAfter, hValue.run [] (.top hBefore)⟩

end TreeWire
