import TreeWire.Proofs.Json.Printing
import TreeWire.Proofs.Number.FloatReading
import TreeWire.Proofs.Source.ScannedDocuments
import TreeWire.Proofs.Source.Walking

/-
  What a stream gives, reading by reading.

  `Stream.resultAt s n` is the result of the reading after `n`
  others, whatever those gave.  For a stream that tells a
  document it is `Json.resultAt`: the tokens within the limit of
  nesting, and after them `eof` for good or the error of the
  limit for good.  A walk through a parsed document and a scanner
  over a text of it tell the same document, so their results
  differ in nothing but the position of that error.

  Main statements:
    * `Stream.resultAt_of_delivers`
    * `Stream.Tells.resultAt_eq`
    * `walk_and_scanner_read_alike`
-/

namespace TreeWire

------------------------------------------------------------
-- Results One by One
------------------------------------------------------------

namespace Stream

variable {μ : Type} [TokenMachine μ]

/- The result of the reading after so many others. -/
def resultAt
    (s : Stream μ) : Nat → Except DecodeError Token
  | 0 => s.next.1
  | n + 1 => s.next.2.resultAt n

/- A failure of the source stays with it. -/
theorem failed_of_error
    {s s' : Stream μ}
    {e : DecodeError}
    (h : s.next = (.error e, s')) :
    s'.failed = some e := by
  cases advances_of_next h with
  | stopped _ hFailed => exact hFailed
  | failure => rfl

/- A failure comes again on the next reading. -/
theorem next_of_error
    {s s' : Stream μ}
    {e : DecodeError}
    (h : s.next = (.error e, s')) :
    s'.next = (.error e, s') :=
  (Advances.stopped (held_of_next h) (failed_of_error h)).next_eq

/- A result that comes again once comes again for good. -/
theorem resultAt_of_again
    {s s' : Stream μ}
    {r : Except DecodeError Token}
    (hFirst : s.next = (r, s'))
    (hAgain : s'.next = (r, s'))
    (n : Nat) :
    s.resultAt n = r := by
  induction n generalizing s with
  | zero => rw [resultAt, hFirst]
  | succ n ih =>
      rw [resultAt, hFirst]
      exact ih hAgain

/- Delivered tokens, and the results after them. -/
theorem resultAt_of_delivers
    {s s' : Stream μ}
    {ts : List Token}
    (h : s.Delivers ts s')
    (n : Nat) :
    s.resultAt n =
      match ts[n]? with
      | some t => .ok t
      | none => s'.resultAt (n - ts.length) := by
  induction h generalizing n with
  | nil s => simp
  | cons hNext _ ih =>
      cases n with
      | zero => simp [resultAt, hNext]
      | succ n =>
          rw [resultAt, hNext, ih]
          simp

end Stream

------------------------------------------------------------
-- Results of a Document
------------------------------------------------------------

/-
  The result of the reading after so many others, where a
  document is told: a token within the limit, else the end, or
  the error of the limit with a position.
-/
def Json.resultAt
    (j : Json)
    (limit : Nat)
    (position : Option Position)
    (n : Nat) : Except DecodeError Token :=
  match (Token.within limit 0 j.tokens)[n]? with
  | some t => .ok t
  | none =>
      if j.depth ≤ limit then
        .ok .eof
      else
        .error (.here (.malformed (depthMessage limit) position))

/- A stream that tells a document has the results of it. -/
theorem Stream.Tells.resultAt_eq
    {μ : Type}
    [TokenMachine μ]
    {Site : Option Position → Prop}
    {limit : Nat}
    {s : Stream μ}
    {j : Json}
    (h : s.Tells Site limit j) :
    ∃ position,
      (limit < j.depth → Site position) ∧
        ∀ n, s.resultAt n = j.resultAt limit position n := by
  by_cases hDepth : j.depth ≤ limit
  · rcases h.delivers hDepth with ⟨s₁, s₂, hTokens, hEof, hEnd⟩
    refine ⟨none, fun hDeep => absurd hDepth (Nat.not_le.mpr hDeep),
      fun n => ?_⟩
    rw [resultAt_of_delivers hTokens, Json.resultAt,
      (Json.within_tokens_eq_iff j).mpr hDepth, if_pos hDepth,
      resultAt_of_again hEof hEnd]
  · have hDeep := Nat.lt_of_not_le hDepth
    rcases h.tooDeep hDeep with ⟨us, _, _, s₁, _, hCut, hTokens, hFails⟩
    rcases hFails with ⟨position, s₂, hSite, hError⟩
    refine ⟨position, fun _ => hSite, fun n => ?_⟩
    rw [resultAt_of_delivers hTokens, Json.resultAt, hCut,
      if_neg hDepth, resultAt_of_again hError (next_of_error hError)]

------------------------------------------------------------
-- Parsed Documents
------------------------------------------------------------

/-
  The literals of parsed documents.  A number is an integer in
  plain decimal or a double in its own text.
-/
inductive Literal.IsParsed : Literal → Prop where
  | null :
      IsParsed ⟨.null, "null"⟩
  | bool
      (b : Bool) :
      IsParsed ⟨.bool, Json.boolText b⟩
  | string
      (s : String) :
      IsParsed ⟨.string, s⟩
  | int
      (n : Int) :
      IsParsed ⟨.int, intText n⟩
  | float
      (x : Binary64) :
      IsParsed ⟨.float, x.text⟩

namespace Json

/- A document all literals of which are those of a parsed one. -/
def IsParsed
    (j : Json) : Prop :=
  ∀ lit, .literal lit ∈ j.tokens → lit.IsParsed

/- A parsed document is written as the grammar wants it. -/
theorem IsParsed.spelled
    {j : Json}
    (h : j.IsParsed) :
    Spelled j.tokens := by
  intro lit hMem
  cases h lit hMem with
  | null => exact .word (by decide)
  | bool b =>
      cases b with
      | true => exact .word (by decide)
      | false => exact .word (by decide)
  | string s => exact scalar_string s
  | int n => exact .number (number_intText n)
  | float x => exact .number (number_text x)

end Json

------------------------------------------------------------
-- Both Sources
------------------------------------------------------------

/-
  A walk through a parsed document and a scanner over its compact
  or its indented text give the same results: the same tokens
  with the same texts, the end at the same reading, or the error
  of the limit at the same reading.  Only the scanner says where
  that error is.
-/
theorem walk_and_scanner_read_alike
    (j : Json)
    (limit : Nat)
    (hParsed : j.IsParsed)
    (text : String)
    (hText : text = j.compact ∨ text = j.pretty) :
    ∃ position,
      ∀ n,
        (ValueWalk.stream j limit).resultAt n =
            j.resultAt limit none n ∧
          (Scanner.stream text.toUTF8.toList none limit).resultAt n =
            j.resultAt limit (some position) n := by
  have hDocument : Grammar.Document text.toUTF8.toList j := by
    rcases hText with rfl | rfl
    · exact Json.document_compact j hParsed.spelled
    · exact Json.document_pretty j hParsed.spelled
  rcases (ValueWalk.stream_tells j limit).resultAt_eq with
    ⟨unsited, hUnsited, hWalk⟩
  rcases (Scanner.stream_tells limit hDocument).resultAt_eq with
    ⟨site, hSited, hScan⟩
  -- Within the limit no result names a position.
  by_cases hDepth : j.depth ≤ limit
  · have hSame :
        ∀ position position' n,
          j.resultAt limit position n =
            j.resultAt limit position' n := by
      intro position position' n
      simp only [Json.resultAt, if_pos hDepth]
    exact ⟨.start, fun n => ⟨(hWalk n).trans (hSame _ _ n),
      (hScan n).trans (hSame _ _ n)⟩⟩
  · have hDeep := Nat.lt_of_not_le hDepth
    cases hUnsited hDeep
    rcases hSited hDeep with ⟨position, rfl⟩
    exact ⟨position, fun n => ⟨hWalk n, hScan n⟩⟩

/- A list in an object, with a key that has to be escaped. -/
def quotedList : Json :=
  .object
    [("a\"\n", .array [.float (Binary64.zero true), .int (-7)]),
     ("é", .null)]

/- At one level both sources stop before the list. -/
theorem quotedList_read_alike :
    quotedList.IsParsed ∧
    quotedList.resultAt 1 none 1 = .ok (.key "a\"\n") ∧
    quotedList.resultAt 1 none 2 =
      .error (.here (.malformed (depthMessage 1) none)) ∧
    ∃ position,
      ∀ n,
        (ValueWalk.stream quotedList 1).resultAt n =
            quotedList.resultAt 1 none n ∧
          (Scanner.stream quotedList.pretty.toUTF8.toList none
              1).resultAt n =
            quotedList.resultAt 1 (some position) n := by
  have hParsed : quotedList.IsParsed := by
    intro lit hMem
    have hCases :
        lit = ⟨.float, (Binary64.zero true).text⟩ ∨
          lit = ⟨.int, intText (-7)⟩ ∨ lit = ⟨.null, "null"⟩ := by
      simpa [quotedList, Json.tokens, Json.memberTokens,
        Json.itemTokens, Json.float, Json.int, Json.null] using hMem
    rcases hCases with rfl | rfl | rfl
    · exact .float _
    · exact .int _
    · exact .null
  exact ⟨hParsed, rfl, rfl,
    walk_and_scanner_read_alike quotedList 1 hParsed _ (.inr rfl)⟩

end TreeWire
