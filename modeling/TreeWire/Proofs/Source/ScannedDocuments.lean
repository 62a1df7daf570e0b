import TreeWire.Proofs.Source.Nesting
import TreeWire.Proofs.Source.Scanning

/-
  Whole runs of the scanner.

  What a scanner delivers is a run of the automaton whose
  containers stay within the limit, and every such run is
  delivered.  So a scanner reaches the end of its input exactly
  on the documents that nest no deeper than the limit, and it
  delivers their tokens.  A text is the document of one tree.

  Main statements:
    * `Scanner.delivers_sound`
    * `Scanner.delivers_run`
    * `Scanner.stream_tells`
    * `Grammar.Document.unique`
    * `scanner_accepts_exactly_documents`
-/

namespace TreeWire

open Grammar

------------------------------------------------------------
-- Advances and Nesting
------------------------------------------------------------

namespace Advance

variable {p p' : Point} {bytes : List UInt8} {t : Token}

/- The open containers are counted by the tokens. -/
theorem frames_length
    (h : Advance p bytes t p') :
    p'.frames.length = t.nest p.frames.length := by
  cases h with
  | scalar => rfl
  | openArray => rfl
  | openObject => rfl
  | closeArray => exact List.length_tail
  | closeObject => exact List.length_tail
  | key => rfl

theorem ne_eof
    (h : Advance p bytes t p') :
    t ≠ .eof := by
  cases h <;> nofun

/- Every advance takes a byte. -/
theorem bytes_ne_nil
    (h : Advance p bytes t p') :
    bytes ≠ [] := by
  cases h with
  | scalar hLead hScalar =>
      have hStart : ValueStart p.frames _ _ _ := .scalar hScalar
      rcases Scanner.valueStart_head hStart with
        ⟨b, used, rfl, _, _⟩
      simp
  | openArray => simp
  | openObject => simp
  | closeArray => simp
  | closeObject => simp
  | key => simp

end Advance

namespace Scanner

variable {s s' : Scanner}

/- Every token but `eof` takes a byte. -/
instance : LawfulMachine Scanner where
  bound_lt := by
    intro s s' t h hEof
    rcases token_sound h with ⟨used, p, hReads, hAdvance, _, _⟩ | hEnd
    · have hUsed := List.length_pos_iff.mpr hAdvance.bytes_ne_nil
      change s'.cursor.unread.length < s.cursor.unread.length
      rw [hReads.unread, List.length_append]
      omega
    · exact absurd hEnd.1 hEof
  bound_le := by
    intro s s' h
    rcases token_sound h with
      ⟨used, p, hReads, hAdvance, _, _⟩ | ⟨_, _, blanks, _, hReads, _⟩
    · exact absurd rfl hAdvance.ne_eof
    · change s'.cursor.unread.length ≤ s.cursor.unread.length
      rw [hReads.unread, List.length_append]
      omega

------------------------------------------------------------
-- Delivered Tokens Are Runs
------------------------------------------------------------

/-
  Tokens that a scanner delivers run over the bytes read, and
  stay within the limit.
-/
theorem delivers_sound
    {ts : List Token}
    {stream : Stream Scanner}
    (hEof : .eof ∉ ts)
    (h : (Stream.start s).Delivers ts stream) :
    ∃ s' used,
      stream = Stream.start s' ∧ s.cursor.Reads used s'.cursor ∧
        Run s.point used ts s'.point ∧ s'.maxDepth = s.maxDepth ∧
        Token.within s.maxDepth s.frames.length ts = ts := by
  induction ts generalizing s with
  | nil =>
      cases Stream.Delivers.nil_iff.mp h
      exact ⟨s, [], rfl, Cursor.Reads.nil_iff.mpr rfl, .nil _, rfl,
        rfl⟩
  | cons t ts ih =>
      rw [List.mem_cons, not_or] at hEof
      rcases Stream.Delivers.cons_iff.mp h with
        ⟨stream₁, hNext, hRest⟩
      rcases Stream.next_start_ok_iff.mp hNext with
        ⟨s₁, hStep, rfl⟩
      rcases token_sound hStep with
        ⟨used, p, hReads, hAdvance, hMoved, hDepth⟩ | hEnd
      · have hPoint : s₁.point = p := by
          rw [hMoved]
          rfl
        have hLimit : s₁.maxDepth = s.maxDepth := by
          rw [hMoved]
          rfl
        have hLength : s₁.frames.length = t.nest s.frames.length := by
          rw [← hPoint] at hAdvance
          exact hAdvance.frames_length
        rcases ih hEof.2 hRest with
          ⟨s', more, rfl, hMore, hRun, hLimit', hWithin⟩
        rw [hPoint] at hRun
        rw [hLimit, hLength] at hWithin
        refine ⟨s', used ++ more, rfl, hReads.append hMore,
          .cons hAdvance hRun, hLimit'.trans hLimit, ?_⟩
        rw [Token.within, if_neg, hWithin]
        intro hParts
        rcases hParts with ⟨hOpens, hDeep⟩
        have := hDepth hOpens
        omega
      · exact absurd hEnd.1.symm hEof.1

------------------------------------------------------------
-- Runs Are Delivered
------------------------------------------------------------

/- A byte that goes on with no number. -/
theorem numberEnds_cons
    {b : UInt8}
    {rest : List UInt8}
    (h :
      Lexeme.isDigitByte b = false ∧ b ≠ 0x2e ∧ b ≠ 0x65 ∧
        b ≠ 0x45) :
    Lexeme.NumberEnds (b :: rest) := by
  intro b' hCase
  cases hCase
  exact h

theorem numberEnds_blanks
    {blanks rest : List UInt8}
    (hBlanks : Blanks blanks)
    (hRest : Lexeme.NumberEnds rest) :
    Lexeme.NumberEnds (blanks ++ rest) := by
  cases blanks with
  | nil => exact hRest
  | cons b blanks =>
      apply numberEnds_cons
      rcases hBlanks b (by simp) with rfl | rfl | rfl | rfl <;>
        decide

/- A comma or a closing mark goes on with no number. -/
theorem numberEnds_lead
    {frames : List Frame}
    {lead rest : List UInt8}
    (h :
      ValueLead (Point.after frames).stage lead ∨
        KeyLead (Point.after frames).stage lead) :
    Lexeme.NumberEnds (lead ++ rest) := by
  have hComma :
      ∀ {before after : List UInt8}, Blanks before →
        Lexeme.NumberEnds (before ++ 0x2c :: after ++ rest) := by
    intro before after hBefore
    rw [List.append_assoc]
    exact numberEnds_blanks hBefore (numberEnds_cons (by decide))
  rcases frames with _ | ⟨_ | _, frames⟩
  · rcases h with h | h <;> cases h
  · rcases h with h | h
    · cases h
    · cases h with
      | more hBefore _ => exact hComma hBefore
  · rcases h with h | h
    · cases h with
      | more hBefore _ => exact hComma hBefore
    · cases h

/- After a value, no byte goes on with a number. -/
theorem numberEnds_of_run
    {frames : List Frame}
    {p : Point}
    {bytes rest : List UInt8}
    {ts : List Token}
    (h : Run (.after frames) bytes ts p)
    (hRest : Lexeme.NumberEnds rest) :
    Lexeme.NumberEnds (bytes ++ rest) := by
  generalize hPoint : Point.after frames = p₀ at h
  cases h with
  | nil => exact hRest
  | cons hFirst _ =>
      subst hPoint
      rw [List.append_assoc]
      cases hFirst with
      | scalar hLead _ =>
          rw [List.append_assoc]
          exact numberEnds_lead (.inl hLead)
      | openArray hLead =>
          rw [List.append_assoc]
          exact numberEnds_lead (.inl hLead)
      | openObject hLead =>
          rw [List.append_assoc]
          exact numberEnds_lead (.inl hLead)
      | closeArray _ hBlanks =>
          rw [List.append_assoc]
          exact numberEnds_blanks hBlanks
            (numberEnds_cons (by decide))
      | closeObject _ hBlanks =>
          rw [List.append_assoc]
          exact numberEnds_blanks hBlanks
            (numberEnds_cons (by decide))
      | key hLead _ _ =>
          simp only [List.append_assoc]
          exact numberEnds_lead (.inr hLead)

/- The error of a scanner names a position. -/
def Sited
    (position : Option Position) : Prop :=
  ∃ p, position = some p

/- A container beyond the limit stops a scanner. -/
theorem failsBeyond
    {used : List UInt8}
    {t : Token}
    {p : Point}
    {c : Cursor}
    (hFirst : Advance s.point used t p)
    (hReads : s.cursor.Reads used c)
    (hOpens : t.opens = true)
    (hDeep : s.maxDepth ≤ s.frames.length) :
    (Stream.start s).FailsBeyond Sited s.maxDepth := by
  have hFails :
      ∃ position s₁,
        token s =
          (.error (.here
            (.malformed (depthMessage s.maxDepth)
              (some position))), s₁) := by
    cases hFirst with
    | openArray hLead =>
        rcases Cursor.Reads.append_iff.mp hReads with
          ⟨c₁, hBefore, hByte⟩
        exact token_tooDeep hLead hBefore hByte (.inl rfl) hDeep
    | openObject hLead =>
        rcases Cursor.Reads.append_iff.mp hReads with
          ⟨c₁, hBefore, hByte⟩
        exact token_tooDeep hLead hBefore hByte (.inr rfl) hDeep
    | _ => cases hOpens
  rcases hFails with ⟨position, s₁, hStep⟩
  exact ⟨_, _, ⟨position, rfl⟩, Stream.next_start_error hStep⟩

/- The induction is on the run, one step for each advance. -/
theorem delivers_run
    {bytes : List UInt8}
    {ts : List Token}
    {p : Point}
    {c : Cursor}
    (hRun : Run s.point bytes ts p)
    (hReads : s.cursor.Reads bytes c)
    (hEnd : Lexeme.NumberEnds c.unread)
    (hFault : c.fault = none) :
    (Stream.start s).GoesThrough Sited s.maxDepth
      s.frames.length ts (Stream.start (s.moved c p)) := by
  generalize hPoint : s.point = p₀ at hRun
  induction hRun generalizing s with
  | nil =>
      cases Cursor.Reads.nil_iff.mp hReads
      subst hPoint
      exact .nil _
  | @cons p₀ p₁ p' used bytes t ts hFirst hRest ih =>
      subst hPoint
      rcases Cursor.Reads.append_iff.mp hReads with
        ⟨c₁, hUsed, hMore⟩
      by_cases hDeep :
          t.opens = true ∧ s.maxDepth ≤ s.frames.length
      · exact .tooDeep ts _ hDeep.1 hDeep.2
          (failsBeyond hFirst hUsed hDeep.1 hDeep.2)
      · have hStep : token s = (.ok t, s.moved c₁ p₁) := by
          apply token_complete hFirst hUsed
          · intro hOpens
            exact Nat.lt_of_not_le fun hLe => hDeep ⟨hOpens, hLe⟩
          · intro lit hEq
            subst hEq
            refine ⟨?_, hMore.clear fun _ => hFault⟩
            rw [hMore.unread]
            cases hFirst with
            | scalar => exact numberEnds_of_run hRest hEnd
        have hLength :
            p₁.frames.length = t.nest s.frames.length :=
          hFirst.frames_length
        have hThrough := ih (s := s.moved c₁ p₁) hMore rfl
        simp only [moved, hLength] at hThrough
        exact .cons (Stream.next_start_ok_iff.mpr ⟨_, hStep, rfl⟩)
          hDeep hThrough

------------------------------------------------------------
-- Documents
------------------------------------------------------------

/- At the end a scanner stays where it is. -/
theorem next_of_ends
    (h : Ends s s') :
    (Stream.start s').AtEnd := by
  rcases h with ⟨hStage, blanks, _, hReads, hNil, hFault, hMoved⟩
  have hStep :
      token s' = (.ok .eof, s'.moved s'.cursor s'.point) := by
    apply token_eof
    · rw [hMoved]
      exact hStage
    · rw [hNil]
      exact nofun
    · rw [hNil]
      exact Cursor.Reads.nil_iff.mpr rfl
    · exact hFault
  exact Stream.next_start_ok_iff.mpr ⟨s', hStep, rfl⟩

/- The end comes again on every further reading. -/
theorem delivers_eof_again
    {ts : List Token}
    {stream : Stream Scanner}
    (h : (Stream.start s).Delivers (ts ++ [.eof]) stream)
    (n : Nat) :
    stream.Delivers (List.replicate n .eof) stream := by
  rcases Stream.Delivers.append_iff.mp h with ⟨_, hTokens, hEnd⟩
  rcases hTokens.exists_start with ⟨s₁, rfl⟩
  rcases Stream.next_start_ok_iff.mp
    (Stream.Delivers.singleton_iff.mp hEnd) with ⟨s₂, hStep, rfl⟩
  rcases token_sound hStep with ⟨_, _, _, hAdvance, _⟩ | ⟨_, hEnds⟩
  · exact absurd rfl hAdvance.ne_eof
  · exact .replicate (next_of_ends hEnds) n

/- A scanner tells the document that its text is. -/
theorem stream_tells
    {bytes : List UInt8}
    {j : Json}
    (limit : Nat)
    (h : Document bytes j) :
    (stream bytes none limit).Tells Sited limit j := by
  rcases run_iff_document.mpr ⟨j, h, rfl⟩ with
    ⟨used, blanks, rfl, hBlanks, hRun⟩
  have hUnread :
      (start (used ++ blanks) none limit).cursor.unread =
        used ++ blanks := rfl
  rcases Cursor.Reads.of_unread hUnread with
    ⟨c, hReads, hRest⟩
  have hFault : c.fault = none := hReads.fault
  have hEnd : Lexeme.NumberEnds c.unread := by
    rw [hRest, ← List.append_nil blanks]
    exact numberEnds_blanks hBlanks nofun
  rcases Cursor.Reads.of_unread (List.append_nil c.unread).symm
    with ⟨c', hReads', hNil⟩
  have hFault' : c'.fault = none := by
    rw [hReads'.fault, hFault]
  rw [← hRest] at hBlanks
  have hThrough :=
    delivers_run (s := start (used ++ blanks) none limit)
      hRun hReads hEnd hFault
  refine ⟨_, _, hThrough, Stream.next_start_ok_iff.mpr
    ⟨_, token_eof rfl hBlanks hReads' hFault', rfl⟩, ?_⟩
  exact next_of_ends
    (s := (start (used ++ blanks) none limit).moved c .last)
    ⟨rfl, _, hBlanks, hReads', hNil, hFault', rfl⟩

/- What reaches the end is a document within the limit. -/
theorem document_of_delivers
    {bytes : List UInt8}
    {limit : Nat}
    {ts : List Token}
    {s : Stream Scanner}
    (hEof : .eof ∉ ts)
    (h : (stream bytes none limit).Delivers (ts ++ [.eof]) s) :
    ∃ j, Document bytes j ∧ j.depth ≤ limit ∧ ts = j.tokens := by
  rcases Stream.Delivers.append_iff.mp h with ⟨s₁, hTokens, hEnd⟩
  rcases delivers_sound hEof hTokens with
    ⟨s', used, rfl, hReads, hRun, _, hWithin⟩
  rcases Stream.next_start_ok_iff.mp
    (Stream.Delivers.singleton_iff.mp hEnd) with ⟨s'', hStep, rfl⟩
  rcases token_sound hStep with ⟨_, _, _, hAdvance, _⟩ | ⟨_, hEnds⟩
  · exact absurd rfl hAdvance.ne_eof
  · rcases hEnds with ⟨hStage, blanks, hBlanks, hReads', hNil, _⟩
    have hLast : s'.point = .last := by
      have hFits := hRun.fits rfl
      simp only [Point.Fits, point, hStage] at hFits
      rw [point, hStage, hFits]
      rfl
    have hUnread := hReads'.unread
    rw [hNil, List.append_nil] at hUnread
    have hBytes : bytes = used ++ blanks := by
      rw [← hUnread]
      exact hReads.unread
    rw [hLast] at hRun
    rcases run_iff_document.mp ⟨used, blanks, hBytes, hBlanks, hRun⟩
      with ⟨j, hDocument, rfl⟩
    exact ⟨j, hDocument, (Json.within_tokens_eq_iff j).mp hWithin,
      rfl⟩

/- A document is delivered whole where the limit lets it. -/
theorem delivers_document
    {bytes : List UInt8}
    {limit : Nat}
    {j : Json}
    (h : Document bytes j)
    (hDepth : j.depth ≤ limit) :
    ∃ s, (stream bytes none limit).Delivers (j.tokens ++ [.eof]) s := by
  rcases (stream_tells limit h).delivers hDepth with
    ⟨s₁, s, hTokens, hEof, _⟩
  exact ⟨s, Stream.Delivers.append_iff.mpr
    ⟨s₁, hTokens, Stream.Delivers.singleton_iff.mpr hEof⟩⟩

end Scanner

/- A text is the document of one tree. -/
theorem Grammar.Document.unique
    {bytes : List UInt8}
    {j j' : Json}
    (h : Document bytes j)
    (h' : Document bytes j') :
    j = j' := by
  let limit := max j.depth j'.depth
  rcases Scanner.delivers_document h (Nat.le_max_left _ _ : _ ≤ limit)
    with ⟨s, hTokens⟩
  rcases Scanner.delivers_document h' (Nat.le_max_right _ _ : _ ≤ limit)
    with ⟨s', hTokens'⟩
  exact Json.tokens_injective
    (hTokens.tokens_unique j.eof_not_mem_tokens
      j'.eof_not_mem_tokens hTokens')

/-
  A scanner over a text reaches the end of its input exactly
  when the text is a document that nests no deeper than the
  limit.  The tokens before the end are those of the document,
  and the end comes again on every further reading.
-/
theorem scanner_accepts_exactly_documents
    (bytes : List UInt8)
    (limit : Nat)
    (ts : List Token) :
    (.eof ∉ ts ∧
        (∃ s,
          (Scanner.stream bytes none limit).Delivers
            (ts ++ [.eof]) s) ↔
      ∃ j,
        Grammar.Document bytes j ∧ j.depth ≤ limit ∧
          ts = j.tokens) ∧
      ∀ s n,
        (Scanner.stream bytes none limit).Delivers
            (ts ++ [.eof]) s →
          s.Delivers (List.replicate n .eof) s := by
  constructor
  · constructor
    · intro hParts
      rcases hParts with ⟨hEof, s, hDelivers⟩
      exact Scanner.document_of_delivers hEof hDelivers
    · intro hParts
      rcases hParts with ⟨j, hDocument, hDepth, rfl⟩
      exact ⟨j.eof_not_mem_tokens,
        Scanner.delivers_document hDocument hDepth⟩
  · intro s n hDelivers
    exact Scanner.delivers_eof_again hDelivers n

end TreeWire
