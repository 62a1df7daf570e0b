import TreeWire.Proofs.Source.InputErrors
import TreeWire.Proofs.Source.Sessions

/-
  The open containers of a scanner over whole runs.

  What the grammar allows next agrees with the innermost open
  container in every state that a session leads to, and no more
  containers are open than the limit lets.  A step that succeeds
  is an advance of the grammar, and a step that fails opens and
  closes nothing.

  From every point that fits, some bytes lead to the end of a
  document without opening a container.  So the tokens of a
  scanner always begin the tokens of a document within the
  limit, whatever the bytes are and wherever reading fails.

  Key definitions include:
    * `openContainers`
    * `Scanner.Matched`

  Main statements:
    * `Scanner.Sound.step`
    * `Point.Fits.finishable`
    * `Scanner.begins_document`
    * `scanner_keeps_to_open_containers`
-/

namespace TreeWire

open Grammar

------------------------------------------------------------
-- Open Containers
------------------------------------------------------------

/- The open containers after a token, innermost first. -/
def Token.enclose
    (frames : List Frame) : Token → List Frame
  | .objectOpen => .object :: frames
  | .arrayOpen => .array :: frames
  | .objectClose => frames.tail
  | .arrayClose => frames.tail
  | _ => frames

/- The containers that tokens leave open, innermost first. -/
def openContainers
    (ts : List Token) : List Frame :=
  ts.foldl Token.enclose []

theorem Advance.frames_eq
    {p p' : Point}
    {bytes : List UInt8}
    {t : Token}
    (h : Advance p bytes t p') :
    p'.frames = t.enclose p.frames := by
  cases h <;> rfl

/- A closing mark closes the innermost open container. -/
theorem Advance.closes_innermost
    {p p' : Point}
    {bytes : List UInt8}
    {t : Token}
    (h : Advance p bytes t p')
    (hFits : p.Fits) :
    (t = .objectClose → p.frames.head? = some .object) ∧
      (t = .arrayClose → p.frames.head? = some .array) := by
  rcases p with ⟨stage, frames⟩
  cases h with
  | closeArray hStage =>
      refine ⟨nofun, fun _ => ?_⟩
      rcases hStage with rfl | rfl <;> exact hFits
  | closeObject hStage =>
      refine ⟨fun _ => ?_, nofun⟩
      rcases hStage with rfl | rfl <;> exact hFits
  | _ => exact ⟨nofun, nofun⟩

------------------------------------------------------------
-- Sound States
------------------------------------------------------------

namespace Scanner

/-
  What the grammar allows next tells the innermost container,
  and the innermost container tells what is allowed next.
-/
structure Matched
    (s : Scanner) : Prop where
  object :
    s.frames.head? = some .object ↔
      s.stage = .firstKey ∨ s.stage = .key ∨
        s.stage = .memberValue ∨ s.stage = .afterMember
  array :
    s.frames.head? = some .array ↔
      s.stage = .firstElement ∨ s.stage = .element ∨
        s.stage = .afterElement
  top :
    s.frames = [] ↔ s.stage = .topValue ∨ s.stage = .topDone

/- A scanner at a fitting point, within its limit. -/
structure Sound
    (limit : Nat)
    (s : Scanner) : Prop where
  fits : s.point.Fits
  within : s.frames.length ≤ limit
  limit_eq : s.maxDepth = limit

variable {s s' : Scanner}
variable {limit : Nat}

theorem Sound.matched
    (h : s.Sound limit) :
    s.Matched := by
  have hFits := h.fits
  rcases s with ⟨cursor, frames, stage, maxDepth⟩
  simp only [Point.Fits, point] at hFits
  cases stage <;>
    exact ⟨by simp [hFits], by simp [hFits], by grind⟩

theorem sound_start
    (bytes : List UInt8)
    (fault : Option String)
    (limit : Nat) :
    (start bytes fault limit).Sound limit :=
  ⟨rfl, Nat.zero_le _, rfl⟩

/- A step keeps a scanner sound, whether it fails or not. -/
theorem Sound.step
    (h : s.Sound limit) :
    (token s).2.Sound limit := by
  rcases hStep : token s with ⟨e | t, s'⟩
  · rcases token_error hStep with ⟨_, c, stage, rfl, hStage⟩
    refine ⟨?_, h.within, h.limit_eq⟩
    have hFits := h.fits
    rcases s with ⟨cursor, frames, stage', maxDepth⟩
    cases hStage <;> exact hFits
  · rcases token_sound hStep with
      ⟨used, p, _, hAdvance, hMoved, hDepth⟩ |
      ⟨_, _, _, _, _, _, _, hMoved⟩
    · rw [hMoved]
      refine ⟨hAdvance.fits h.fits, ?_, h.limit_eq⟩
      have hLength := hAdvance.frames_length
      have hWithin := h.within
      change p.frames.length ≤ limit
      rw [hLength]
      cases t with
      | objectOpen | arrayOpen =>
          have hLt := hDepth rfl
          rw [h.limit_eq] at hLt
          exact hLt
      | objectClose | arrayClose =>
          exact Nat.le_trans (Nat.sub_le _ _) hWithin
      | _ => exact hWithin
    · rw [hMoved]
      exact ⟨h.fits, h.within, h.limit_eq⟩

/- Readings and tokens given back keep a scanner sound. -/
theorem Sound.next
    {stream : Stream Scanner}
    (h : stream.machine.Sound limit) :
    stream.next.2.machine.Sound limit := by
  have hSound := h.step
  rcases hNext : stream.next with ⟨r, stream'⟩
  cases Stream.advances_of_next hNext with
  | held => exact h
  | stopped => exact h
  | token _ _ hStep =>
      rw [show token stream.machine = _ from hStep] at hSound
      exact hSound
  | failure _ _ hStep =>
      rw [show token stream.machine = _ from hStep] at hSound
      exact hSound

theorem Sound.delivers
    {stream stream' : Stream Scanner}
    {ts : List Token}
    (h : stream.machine.Sound limit)
    (hDelivers : stream.Delivers ts stream') :
    stream'.machine.Sound limit := by
  induction hDelivers with
  | nil => exact h
  | cons hNext _ ih =>
      have hSound := h.next
      rw [hNext] at hSound
      exact ih hSound

theorem Sound.session
    {stream stream' : Stream Scanner}
    {events : List Event}
    (h : stream.machine.Sound limit)
    (hSession : Session stream events stream') :
    stream'.machine.Sound limit := by
  induction hSession with
  | nil => exact h
  | read hRead _ ih =>
      rw [← Session.state_of_read hRead] at ih
      exact ih h.next
  | @back s s₁ _ _ _ t _ hNext _ _ ih =>
      have hSound := h.next
      rw [hNext] at hSound
      exact ih hSound

end Scanner

------------------------------------------------------------
-- Documents That Are Cut Short
------------------------------------------------------------

/- Bytes lead to the end of a document, and open nothing. -/
def Point.Finishable
    (p : Point) : Prop :=
  ∃ bytes ts, Run p bytes ts .last ∧ ∀ t ∈ ts, t.opens = false

theorem Advance.finishable
    {p p' : Point}
    {bytes : List UInt8}
    {t : Token}
    (h : Advance p bytes t p')
    (hOpens : t.opens = false)
    (hNext : p'.Finishable) :
    p.Finishable := by
  rcases hNext with ⟨more, ts, hRun, hTokens⟩
  refine ⟨bytes ++ more, t :: ts, .cons h hRun, ?_⟩
  rw [List.forall_mem_cons]
  exact ⟨hOpens, hTokens⟩

namespace Point

/- The open containers can be closed one by one. -/
theorem finishable_after
    (frames : List Frame) :
    (after frames).Finishable := by
  induction frames with
  | nil => exact ⟨[], [], .nil last, nofun⟩
  | cons frame frames ih =>
      cases frame with
      | object =>
          have hClose :
              Advance (after (.object :: frames)) _ .objectClose
                (after frames) :=
            .closeObject (.inr rfl) Json.blanks_nil
          exact hClose.finishable rfl ih
      | array =>
          have hClose :
              Advance (after (.array :: frames)) _ .arrayClose
                (after frames) :=
            .closeArray (.inr rfl) Json.blanks_nil
          exact hClose.finishable rfl ih

/- Where a value may stand, `null` may. -/
theorem finishable_value
    {p : Point}
    (hLead : ValueLead p.stage []) :
    p.Finishable := by
  have hNull : Scalar (utf8 "null".toList) ⟨.null, "null"⟩ :=
    .word (by decide)
  exact (Advance.scalar hLead hNull).finishable rfl
    (finishable_after p.frames)

/- From every point that fits a document can be finished. -/
theorem Fits.finishable
    {p : Point}
    (h : p.Fits) :
    p.Finishable := by
  have hBlanks := Json.blanks_nil
  rcases p with ⟨stage, frames⟩
  cases stage with
  | topValue => exact finishable_value (.top hBlanks)
  | topDone =>
      cases h
      exact finishable_after []
  | firstKey =>
      exact (Advance.closeObject (.inl rfl) hBlanks).finishable rfl
        (finishable_after frames.tail)
  | key =>
      have hKey : Quoted (0x22 :: ([] ++ [0x22])) "" := .mk .nil
      exact (Advance.key (.key hBlanks) hKey hBlanks).finishable rfl
        (finishable_value (.member hBlanks))
  | memberValue => exact finishable_value (.member hBlanks)
  | afterMember =>
      exact (Advance.closeObject (.inr rfl) hBlanks).finishable rfl
        (finishable_after frames.tail)
  | firstElement =>
      exact (Advance.closeArray (.inl rfl) hBlanks).finishable rfl
        (finishable_after frames.tail)
  | element => exact finishable_value (.element hBlanks)
  | afterElement =>
      exact (Advance.closeArray (.inr rfl) hBlanks).finishable rfl
        (finishable_after frames.tail)

end Point

/- Tokens that open nothing stay within every limit. -/
theorem Token.within_append
    {limit depth : Nat}
    {ts us : List Token}
    (h : Token.within limit depth ts = ts)
    (hOpens : ∀ t ∈ us, t.opens = false) :
    Token.within limit depth (ts ++ us) = ts ++ us := by
  induction ts generalizing depth with
  | nil =>
      induction us generalizing depth with
      | nil => rfl
      | cons u us ih =>
          rw [List.forall_mem_cons] at hOpens
          rw [List.nil_append] at ih ⊢
          rw [within, if_neg (by simp [hOpens.1]), ih hOpens.2 rfl]
  | cons t ts ih =>
      rw [within] at h
      rw [List.cons_append, within]
      split at h
      · cases h
      · rename_i hWithin
        rw [if_neg hWithin, ih (List.cons.inj h).2]

/- Nothing but the end is delivered at the end. -/
theorem Stream.AtEnd.eq_replicate
    {μ : Type}
    [TokenMachine μ]
    {s s' : Stream μ}
    {ts : List Token}
    (hEnd : s.AtEnd)
    (h : s.Delivers ts s') :
    ts = List.replicate ts.length .eof := by
  induction ts with
  | nil => rfl
  | cons t ts ih =>
      rcases Delivers.cons_iff.mp h with ⟨s₁, hNext, hRest⟩
      rw [hEnd] at hNext
      cases hNext
      rw [List.length_cons, List.replicate_succ, ← ih hRest]

namespace Scanner

variable {bytes : List UInt8}
variable {fault : Option String}
variable {limit : Nat}
variable {ts : List Token}
variable {s s' : Stream Scanner}

/- What a scanner delivers before the end begins a document. -/
theorem begins_document
    (hEof : .eof ∉ ts)
    (h : (stream bytes fault limit).Delivers ts s) :
    ∃ text j,
      Document text j ∧ j.depth ≤ limit ∧ ts <+: j.tokens := by
  rcases delivers_sound hEof h with
    ⟨s', used, rfl, _, hRun, _, hWithin⟩
  rcases (hRun.fits rfl).finishable with ⟨more, us, hMore, hOpens⟩
  rcases run_iff_document.mp
    ⟨_, [], (List.append_nil _).symm, Json.blanks_nil,
      hRun.append hMore⟩ with ⟨j, hDocument, hTokens⟩
  refine ⟨_, j, hDocument, ?_, ?_⟩
  · have hAll := Token.within_append hWithin hOpens
    rw [hTokens] at hAll
    exact (Json.within_tokens_eq_iff j).mp hAll
  · rw [← hTokens]
    exact List.prefix_append ts us

------------------------------------------------------------
-- The End of the Input
------------------------------------------------------------

/- The end, once delivered, comes again. -/
theorem atEnd_of_eof
    (h : (stream bytes fault limit).Delivers (ts ++ [.eof]) s) :
    s.AtEnd := by
  have hAgain := delivers_eof_again h 1
  exact Stream.Delivers.singleton_iff.mp hAgain

/- The end is delivered where reading does not fail only. -/
theorem fault_of_eof
    (hEof : .eof ∉ ts)
    (h : (stream bytes fault limit).Delivers (ts ++ [.eof]) s) :
    fault = none := by
  rcases Stream.Delivers.append_iff.mp h with ⟨s₁, hTokens, hEnd⟩
  rcases delivers_sound hEof hTokens with ⟨s', used, rfl, hReads, _⟩
  rcases Stream.next_start_ok_iff.mp
    (Stream.Delivers.singleton_iff.mp hEnd) with ⟨s'', hStep, rfl⟩
  rcases token_sound hStep with ⟨_, _, _, hAdvance, _⟩ | ⟨_, hEnds⟩
  · exact absurd rfl hAdvance.ne_eof
  · rcases hEnds with ⟨_, _, _, hReads', _, hClear, _⟩
    rw [hReads'.fault, hReads.fault] at hClear
    exact hClear

theorem document_of_eof
    (hEof : .eof ∉ ts)
    (h : (stream bytes fault limit).Delivers (ts ++ [.eof]) s) :
    ∃ j, Document bytes j ∧ j.depth ≤ limit ∧ ts = j.tokens := by
  cases fault_of_eof hEof h
  exact document_of_delivers hEof h

/-
  Delivered tokens: those that begin a document, or all of one
  with the end behind it, any number of times.
-/
theorem delivers_cases
    (h : (stream bytes fault limit).Delivers ts s) :
    .eof ∉ ts ∨
      ∃ j n,
        Document bytes j ∧ j.depth ≤ limit ∧
          ts = j.tokens ++ List.replicate (n + 1) .eof := by
  by_cases hEof : .eof ∈ ts
  · rcases List.eq_append_cons_of_mem hEof with
      ⟨us, vs, rfl, hBefore⟩
    rw [List.append_cons] at h
    rcases Stream.Delivers.append_iff.mp h with ⟨s₁, hFirst, hRest⟩
    rcases document_of_eof hBefore hFirst with
      ⟨j, hDocument, hDepth, rfl⟩
    have hEnd := atEnd_of_eof hFirst
    refine .inr ⟨j, vs.length, hDocument, hDepth, ?_⟩
    rw [List.replicate_succ, ← hEnd.eq_replicate hRest]
  · exact .inl hEof

/- The open containers are those that the tokens leave open. -/
theorem frames_of_delivers
    {scanner : Scanner}
    (h : (Stream.start scanner).Delivers ts s) :
    s.machine.frames = ts.foldl Token.enclose scanner.frames := by
  induction ts generalizing scanner with
  | nil =>
      cases Stream.Delivers.nil_iff.mp h
      rfl
  | cons t ts ih =>
      rcases Stream.Delivers.cons_iff.mp h with ⟨s₁, hNext, hRest⟩
      rcases Stream.next_start_ok_iff.mp hNext with
        ⟨scanner₁, hStep, rfl⟩
      have hFrames : scanner₁.frames = t.enclose scanner.frames := by
        rcases token_sound hStep with
          ⟨_, p, _, hAdvance, hMoved, _⟩ |
          ⟨rfl, _, _, _, _, _, _, hMoved⟩
        · rw [hMoved]
          exact hAdvance.frames_eq
        · rw [hMoved]
          rfl
      rw [ih hRest, hFrames]
      rfl

/-
  The last token comes from a sound state, in which the tokens
  before it have left their containers open.
-/
theorem last_step
    {t : Token}
    (h : (stream bytes fault limit).Delivers (ts ++ [t]) s) :
    ∃ scanner scanner',
      scanner.Sound limit ∧ scanner.frames = openContainers ts ∧
        token scanner = (.ok t, scanner') := by
  rcases Stream.Delivers.append_iff.mp h with ⟨s₁, hBefore, hLast⟩
  rcases hBefore.exists_start with ⟨scanner, rfl⟩
  rcases Stream.next_start_ok_iff.mp
    (Stream.Delivers.singleton_iff.mp hLast) with ⟨scanner', hStep, _⟩
  exact ⟨scanner, scanner', (sound_start bytes fault limit).delivers
    hBefore, frames_of_delivers hBefore, hStep⟩

/- A mark that is delivered closes the innermost container. -/
theorem closes_innermost
    {t : Token}
    (h : (stream bytes fault limit).Delivers (ts ++ [t]) s) :
    (t = .objectClose →
        (openContainers ts).head? = some .object) ∧
      (t = .arrayClose →
        (openContainers ts).head? = some .array) := by
  rcases last_step h with ⟨scanner, scanner', hSound, hFrames, hStep⟩
  rw [← hFrames]
  rcases token_sound hStep with ⟨_, _, _, hAdvance, _⟩ | ⟨rfl, _⟩
  · exact hAdvance.closes_innermost hSound.fits
  · exact ⟨nofun, nofun⟩

/- At the end of the input nothing is open. -/
theorem eof_outside
    (h : (stream bytes fault limit).Delivers (ts ++ [.eof]) s) :
    openContainers ts = [] := by
  rcases last_step h with ⟨scanner, scanner', hSound, hFrames, hStep⟩
  rw [← hFrames]
  rcases token_sound hStep with ⟨_, _, _, hAdvance, _⟩ | ⟨_, hStage, _⟩
  · exact absurd rfl hAdvance.ne_eof
  · exact hSound.matched.top.mpr (.inr hStage)

/- The end comes behind a whole document. -/
theorem eof_after_document
    (h : (stream bytes fault limit).Delivers (ts ++ [.eof]) s) :
    ∃ j n,
      Document bytes j ∧ j.depth ≤ limit ∧
        ts = j.tokens ++ List.replicate n .eof := by
  rcases delivers_cases h with hEof | ⟨j, n, hDocument, hDepth, hAll⟩
  · simp at hEof
  · rw [List.replicate_succ', ← List.append_assoc] at hAll
    exact ⟨j, n, hDocument, hDepth, (List.append_inj' hAll rfl).1⟩

end Scanner

------------------------------------------------------------
-- Whole Runs
------------------------------------------------------------

/-
  What holds of a scanner over whole runs, whatever its bytes.

  In every state what is allowed next matches the innermost
  container, and the limit is kept.  The tokens begin those of a
  document within the limit, with the end behind it; the open
  containers are the ones that they leave open.  A closing mark
  is that of the innermost container, and the end comes behind a
  whole document only.  No key is left where the innermost
  container is an object that closes, or behind a document.
-/
structure Scanner.KeepsToContainers
    (bytes : List UInt8)
    (fault : Option String)
    (limit : Nat) : Prop where
  matched :
    ∀ {events s}, Session (stream bytes fault limit) events s →
      s.machine.Matched
  within :
    ∀ {events s}, Session (stream bytes fault limit) events s →
      s.machine.frames.length ≤ limit
  begins :
    ∀ {ts s}, (stream bytes fault limit).Delivers ts s →
      ∃ text j n,
        Document text j ∧ j.depth ≤ limit ∧
          ts <+: j.tokens ++ List.replicate n .eof
  frames :
    ∀ {ts s}, (stream bytes fault limit).Delivers ts s →
      s.machine.frames = openContainers ts
  closes :
    ∀ {ts t s}, (stream bytes fault limit).Delivers (ts ++ [t]) s →
      (t = .objectClose →
          (openContainers ts).head? = some .object) ∧
        (t = .arrayClose →
          (openContainers ts).head? = some .array)
  ends :
    ∀ {ts s},
      (stream bytes fault limit).Delivers (ts ++ [.eof]) s →
      ∃ j n,
        Document bytes j ∧ j.depth ≤ limit ∧
          ts = j.tokens ++ List.replicate n .eof
  noKey :
    ∀ {events s s'}, Session (stream bytes fault limit) events s →
      nextKey s = (.ok none, s') →
      ∃ ts,
        (stream bytes fault limit).Delivers (ts ++ [.objectClose])
            s' ∧
          (openContainers ts).head? = some .object ∨
        (stream bytes fault limit).Delivers (ts ++ [.eof]) s' ∧
          openContainers ts = []

/-
  A scanner keeps to its open containers, over all bytes and at
  every limit, whether reading fails or not.
-/
theorem scanner_keeps_to_open_containers
    (bytes : List UInt8)
    (fault : Option String)
    (limit : Nat) :
    Scanner.KeepsToContainers bytes fault limit where
  matched := fun hSession =>
    ((Scanner.sound_start bytes fault limit).session
      hSession).matched
  within := fun hSession =>
    ((Scanner.sound_start bytes fault limit).session
      hSession).within
  begins := by
    intro ts s h
    rcases Scanner.delivers_cases h with
      hEof | ⟨j, n, hDocument, hDepth, hTokens⟩
    · rcases Scanner.begins_document hEof h with
        ⟨text, j, hDocument, hDepth, hPrefix⟩
      exact ⟨text, j, 0, hDocument, hDepth,
        hPrefix.trans (List.prefix_append _ _)⟩
    · exact ⟨bytes, j, n + 1, hDocument, hDepth,
        hTokens ▸ List.prefix_rfl⟩
  frames := Scanner.frames_of_delivers
  closes := Scanner.closes_innermost
  ends := Scanner.eof_after_document
  noKey := by
    intro events s s' hSession hKey
    rcases hSession.standsAfter (.ready (.nil _)) with ⟨n, hStands⟩
    rcases nextKey_ok hKey with ⟨_, hSome, _⟩ | ⟨_, hNext | hNext⟩
    · cases hSome
    · rcases hStands.delivers hNext with ⟨ts, _, hDelivers⟩
      exact ⟨ts, .inl ⟨hDelivers,
        (Scanner.closes_innermost hDelivers).1 rfl⟩⟩
    · rcases hStands.delivers hNext with ⟨ts, _, hDelivers⟩
      exact ⟨ts, .inr ⟨hDelivers, Scanner.eof_outside hDelivers⟩⟩

end TreeWire
