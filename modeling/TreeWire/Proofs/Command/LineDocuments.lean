import TreeWire.Command.Documents
import TreeWire.Proofs.Json.CompactText
import TreeWire.Proofs.Node.DecodedTexts
import TreeWire.Proofs.Node.RoundTrip
import TreeWire.Proofs.Text.Lines

/-
  Documents on the lines of a text.

  A line that is not blank is a document, whatever the other
  lines are.  The compact text of a project has no control
  character, so it stands on one line, whether a carriage return
  comes before the line feed or not.  Projects that are written
  line by line come back in order, each with the number of its
  line, and blank lines in between only count.

  Key definitions include:
    * `Framing.LineByLine`
    * `RowText`
    * `RowText.Writable`
    * `RowText.outcomes`

  Main statements:
    * `Framing.outcomes_of_lineByLine`
    * `Framing.decodes_lineByLine`
    * `RowText.decodeLines_chars`
    * `line_documents_round_trip`
-/

namespace TreeWire

------------------------------------------------------------
-- Texts of Files
------------------------------------------------------------

/- The bytes of characters are the text of the characters. -/
theorem asText_utf8
    (cs : List Char) :
    asText (utf8 cs) = .ok (String.ofList cs) := by
  have hText :
      Lexeme.utf8Text? (utf8 cs) = some (String.ofList cs) := by
    rw [utf8Text?_eq_some_iff, String.toList_ofList]
  rw [Lexeme.utf8Text?] at hText
  rw [asText, hText]

/- A blank character lies in a run of the table. -/
theorem isBlank_eq_any
    (c : Char) :
    isBlank c = blankTable.toList.any fun run => run.holds c := by
  rw [isBlank, CharTable.holds, ← Array.any_toList]

------------------------------------------------------------
-- Line by Line
------------------------------------------------------------

namespace Framing

/- What becomes of a numbered line, unless it is blank. -/
def lineOutcome?
    (framing : Framing)
    (maxDepth : Nat)
    (path : String)
    (line : String × Nat) : Option Outcome :=
  if isBlankLine line.1 then
    none
  else
    some
      { source := path ++ ":" ++ toString line.2
        result := framing.decodeText maxDepth line.1 }

variable
  {framing : Framing}
  {limit : Nat}
  {path : String}

/- Lines are numbered first, and blank ones left out then. -/
theorem decodeLines_eq
    (framing : Framing)
    (limit : Nat)
    (path : String)
    (number : Nat)
    (lines : List String) :
    framing.decodeLines limit path number lines =
      (lines.zipIdx number).filterMap
        (framing.lineOutcome? limit path) := by
  induction lines generalizing number with
  | nil => rfl
  | cons line lines ih =>
      rw [decodeLines, List.zipIdx_cons, List.filterMap_cons, ih,
        lineOutcome?]
      split
      · rfl
      · rfl

theorem decodeLines_append
    (framing : Framing)
    (limit : Nat)
    (path : String)
    (number : Nat)
    (lines more : List String) :
    framing.decodeLines limit path number (lines ++ more) =
      framing.decodeLines limit path number lines
        ++ framing.decodeLines limit path (number + lines.length)
          more := by
  rw [decodeLines_eq, decodeLines_eq, decodeLines_eq,
    List.zipIdx_append, List.filterMap_append, Nat.add_comm]

theorem decodeLines_cons
    (framing : Framing)
    (limit : Nat)
    (path : String)
    (number : Nat)
    (line : String)
    (lines : List String) :
    framing.decodeLines limit path number (line :: lines) =
      (framing.lineOutcome? limit path (line, number)).toList
        ++ framing.decodeLines limit path (number + 1) lines := by
  rw [decodeLines, lineOutcome?]
  split
  · rfl
  · rfl

/- The outcomes of a text that is framed line by line. -/
theorem outcomes_of_lineByLine
    (limit : Nat)
    (path : String)
    (cs : List Char)
    (h : framing.lineByLine = true) :
    framing.outcomes limit path (.ok (utf8 cs)) =
      framing.decodeLines limit path 1
        ((linesOf cs).map String.ofList) := by
  have hContent :
      (Except.ok (utf8 cs)).bind asText =
        Except.ok (String.ofList cs) :=
    asText_utf8 cs
  simp [outcomes, isWhole, h, hContent, textLines]

/-
  Each line that is not blank has one outcome, which is that of
  the line alone, under its number.  What stands before the line
  and behind it has outcomes that do not depend on the line.
-/
structure LineByLine
    (framing : Framing)
    (limit : Nat)
    (path : String) : Prop where
  oneEach (cs : List Char) :
    framing.outcomes limit path (.ok (utf8 cs)) =
      (((linesOf cs).map String.ofList).zipIdx 1).filterMap
        (framing.lineOutcome? limit path)
  alone (cs : List Char) :
    ∀ line ∈ linesOf cs,
      isBlankLine (String.ofList line) = false →
        framing.outcomes limit path (.ok (utf8 line)) =
          [{ source := path ++ ":" ++ toString 1
             result :=
               framing.decodeText limit (String.ofList line) }]
  between (before line after : List Char) :
    WholeLines before → '\n' ∉ line →
      framing.outcomes limit path
          (.ok (utf8 (before ++ (line ++ '\n' :: after)))) =
        framing.outcomes limit path (.ok (utf8 before))
          ++ (framing.lineOutcome? limit path
              (String.ofList (withoutReturn line),
                before.count '\n' + 1)).toList
          ++ framing.decodeLines limit path (before.count '\n' + 2)
              ((linesOf after).map String.ofList)
  last (before line : List Char) :
    WholeLines before → '\n' ∉ line → line ≠ [] →
      framing.outcomes limit path (.ok (utf8 (before ++ line))) =
        framing.outcomes limit path (.ok (utf8 before))
          ++ (framing.lineOutcome? limit path
              (String.ofList line, before.count '\n' + 1)).toList

/- What stands behind whole lines is decoded by itself. -/
theorem outcomes_append
    {before : List Char}
    (limit : Nat)
    (path : String)
    (after : List Char)
    (h : framing.lineByLine = true)
    (hBefore : WholeLines before) :
    framing.outcomes limit path (.ok (utf8 (before ++ after))) =
      framing.outcomes limit path (.ok (utf8 before))
        ++ framing.decodeLines limit path (before.count '\n' + 1)
          ((linesOf after).map String.ofList) := by
  rw [outcomes_of_lineByLine _ _ _ h, outcomes_of_lineByLine _ _ _ h,
    linesOf_append after hBefore, List.map_append,
    decodeLines_append, List.length_map, length_linesOf hBefore,
    Nat.add_comm]

/- Documents that are framed line by line are decoded so. -/
theorem decodes_lineByLine
    (limit : Nat)
    (path : String)
    (h : framing.lineByLine = true) :
    framing.LineByLine limit path where
  oneEach cs := by
    rw [outcomes_of_lineByLine _ _ _ h, decodeLines_eq]
  alone cs line hMem hText := by
    have hNonempty : line ≠ [] := by
      rintro rfl
      cases hText
    rw [outcomes_of_lineByLine _ _ _ h,
      linesOf_last hNonempty (lineFeed_notMem cs line hMem),
      List.map_singleton, decodeLines_cons, lineOutcome?, hText]
    rfl
  between before line after hBefore hLine := by
    rw [outcomes_append _ _ _ h hBefore, linesOf_line _ hLine,
      List.map_cons, decodeLines_cons, List.append_assoc]
  last before line hBefore hLine hNonempty := by
    rw [outcomes_append _ _ _ h hBefore,
      linesOf_last hNonempty hLine, List.map_singleton,
      decodeLines_cons, decodeLines, List.append_nil]

end Framing

------------------------------------------------------------
-- Rows of Projects
------------------------------------------------------------

/- Every line is a document, and no pointer selects its root. -/
def plainLines : Framing where
  lineByLine := true
  pointer := none

/- What ends a line. -/
inductive LineEnd where
  | feed
  | returnAndFeed
  deriving DecidableEq, Repr, Inhabited

/- The characters that end a line. -/
def LineEnd.chars : LineEnd → List Char
  | .feed => ['\n']
  | .returnAndFeed => ['\r', '\n']

/- A project on a line of its own, or a blank line. -/
inductive Row where
  | project (v : Tree)
  | blank (cs : List Char)

namespace Row

/- The characters of a row: the compact text of a project. -/
def chars : Row → List Char
  | .project v => (v.toJson documentShape).writeCompact
  | .blank cs => cs

/-
  Whether a row can be decoded: a project that fills only fields
  that documents carry and that keeps to the limit of nesting,
  or blank characters on one line.
-/
def Writable
    (limit : Nat) : Row → Prop
  | .project v =>
      v.HasShape documentShape ∧ v.CarriedOnly ∧
        (v.toJson documentShape).depth ≤ limit
  | .blank cs =>
      '\n' ∉ cs ∧ ∀ c ∈ cs, isBlank c = true

/- What becomes of a numbered row. -/
def outcome?
    (path : String) :
    Row × Nat → Option Outcome
  | (.project v, number) =>
      some
        { source := path ++ ":" ++ toString number
          result := .ok v }
  | (.blank _, _) =>
      none

end Row

/- Rows with what ends them, and a last row without an end. -/
structure RowText where
  rows : List (Row × LineEnd)
  last : Option Row

namespace RowText

/- The characters of a text of rows. -/
def chars
    (text : RowText) : List Char :=
  text.rows.flatMap (fun row => row.1.chars ++ row.2.chars)
    ++ (text.last.map Row.chars).getD []

/- All rows of a text, with or without an end. -/
def allRows
    (text : RowText) : List Row :=
  text.rows.map Prod.fst ++ text.last.toList

/- Whether every row can be decoded. -/
def Writable
    (text : RowText)
    (limit : Nat) : Prop :=
  ∀ row ∈ text.allRows, row.Writable limit

/- The projects of a text, each with the number of its row. -/
def outcomes
    (text : RowText)
    (path : String) : List Outcome :=
  (text.allRows.zipIdx 1).filterMap (Row.outcome? path)

end RowText

------------------------------------------------------------
-- Decoding Rows
------------------------------------------------------------

namespace Row

variable
  {limit : Nat}
  {row : Row}

/- The text of a project starts with a brace. -/
theorem exists_chars_project
    {v : Tree}
    (h : v.HasShape documentShape) :
    ∃ cs, (Row.project v).chars = '\x7b' :: cs := by
  rw [documentShape] at h
  cases h with
  | node type slots hFill => exact ⟨_, rfl⟩

/- The text of a project has no control character. -/
theorem unbroken_chars_project
    (v : Tree) :
    Json.Unbroken (Row.project v).chars :=
  Json.unbroken_writeCompact _ (Tree.spelled_toJson v documentShape)

/- The bytes of a project decode to the project. -/
theorem decodeBytes_chars_project
    {v : Tree}
    (h : (Row.project v).Writable limit) :
    decodeBytes limit (utf8 (Row.project v).chars) none = .ok v := by
  rcases h with ⟨hShape, hCarried, hDepth⟩
  have hDocument :=
    Json.document_compact _ (Tree.spelled_toJson v documentShape)
  rw [Json.compact, toUTF8_toList, String.toList_ofList] at hDocument
  have hDenotes := Tree.denotes_toJson hShape rfl hCarried
  exact decodeText_eq_ok_iff.mpr ⟨_, hDocument, hDepth, hDenotes⟩

/- The text of a project decodes to the project. -/
theorem decodeText_chars_project
    {v : Tree}
    (h : (Row.project v).Writable limit) :
    plainLines.decodeText limit
        (String.ofList (Row.project v).chars) =
      .ok v := by
  have hText :
      plainLines.decodeText limit
          (String.ofList (Row.project v).chars) =
        (decodeBytes limit
          (String.ofList (Row.project v).chars).toUTF8.toList
          none).mapError .rejected :=
    rfl
  rw [hText, toUTF8_toList, String.toList_ofList,
    decodeBytes_chars_project h]
  rfl

theorem lineFeed_notMem_chars
    (h : row.Writable limit) :
    '\n' ∉ row.chars := by
  cases row with
  | project v =>
      intro hMem
      have hLow := unbroken_chars_project v _ hMem
      exact absurd hLow (by decide)
  | blank cs => exact h.1

/- A row is decoded as it should be under any number. -/
theorem lineOutcome?_chars
    (path : String)
    (number : Nat)
    (h : row.Writable limit) :
    plainLines.lineOutcome? limit path
        (String.ofList row.chars, number) =
      Row.outcome? path (row, number) := by
  cases row with
  | project v =>
      have hBlank :
          isBlankLine (String.ofList (Row.project v).chars) =
            false := by
        rcases exists_chars_project h.1 with ⟨cs, hChars⟩
        have hBrace : isBlank '\x7b' = false := isBlank_eq_any _
        rw [isBlankLine, String.toList_ofList, hChars, List.all_cons,
          hBrace, Bool.false_and]
      simp only [Framing.lineOutcome?, hBlank,
        decodeText_chars_project h, outcome?]
      rfl
  | blank cs =>
      have hBlank : isBlankLine (String.ofList cs) = true := by
        rw [isBlankLine, String.toList_ofList, List.all_eq_true]
        exact h.2
      simp only [Framing.lineOutcome?, chars, hBlank, outcome?]
      rfl

/- A carriage return at the end of a row is no matter. -/
theorem lineOutcome?_withoutReturn
    (path : String)
    (number : Nat)
    (h : row.Writable limit) :
    plainLines.lineOutcome? limit path
        (String.ofList (withoutReturn row.chars), number) =
      Row.outcome? path (row, number) := by
  cases row with
  | project v =>
      have hReturn : '\r' ∉ (Row.project v).chars := by
        intro hMem
        have hLow := unbroken_chars_project v _ hMem
        exact absurd hLow (by decide)
      rw [withoutReturn_of_notMem hReturn]
      exact lineOutcome?_chars path number h
  | blank cs =>
      have hSubset := withoutReturn_subset cs
      have hRest : (Row.blank (withoutReturn cs)).Writable limit :=
        ⟨fun hMem => h.1 (hSubset hMem),
          fun c hMem => h.2 c (hSubset hMem)⟩
      have hNone := lineOutcome?_chars path number hRest
      rw [chars, outcome?] at hNone
      rw [chars, outcome?]
      exact hNone

/- A row with either end is one line. -/
theorem exists_line
    (path : String)
    (lineEnd : LineEnd)
    (rest : List Char)
    (h : row.Writable limit) :
    ∃ line,
      linesOf (row.chars ++ (lineEnd.chars ++ rest)) =
          line :: linesOf rest ∧
        ∀ number,
          plainLines.lineOutcome? limit path
              (String.ofList line, number) =
            Row.outcome? path (row, number) := by
  have hChars := lineFeed_notMem_chars h
  cases lineEnd with
  | feed =>
      exact ⟨withoutReturn row.chars, linesOf_line rest hChars,
        fun number => lineOutcome?_withoutReturn path number h⟩
  | returnAndFeed =>
      have hLine : '\n' ∉ row.chars ++ ['\r'] := by
        rw [List.mem_append, not_or]
        exact ⟨hChars, by decide⟩
      have hLines := linesOf_line rest hLine
      rw [withoutReturn_append, List.append_assoc] at hLines
      exact ⟨row.chars, hLines,
        fun number => lineOutcome?_chars path number h⟩

/- A last row without an end is one line, or nothing at all. -/
theorem decodeLines_last
    (path : String)
    (number : Nat)
    (h : row.Writable limit) :
    plainLines.decodeLines limit path number
        ((linesOf row.chars).map String.ofList) =
      (Row.outcome? path (row, number)).toList := by
  by_cases hEmpty : row.chars = []
  · cases row with
    | project v =>
        rcases exists_chars_project h.1 with ⟨cs, hChars⟩
        rw [hChars] at hEmpty
        cases hEmpty
    | blank cs =>
        rw [hEmpty]
        rfl
  · rw [linesOf_last hEmpty (lineFeed_notMem_chars h),
      List.map_singleton, Framing.decodeLines_cons,
      lineOutcome?_chars path number h, Framing.decodeLines,
      List.append_nil]

end Row

namespace RowText

/- Rows are decoded one by one.  The induction is on the rows. -/
theorem decodeLines_chars
    {limit : Nat}
    (path : String)
    (number : Nat)
    (last : Option Row)
    (rows : List (Row × LineEnd))
    (h : Writable ⟨rows, last⟩ limit) :
    plainLines.decodeLines limit path number
        ((linesOf (chars ⟨rows, last⟩)).map String.ofList) =
      ((allRows ⟨rows, last⟩).zipIdx number).filterMap
        (Row.outcome? path) := by
  induction rows generalizing number with
  | nil =>
      cases last with
      | none => rfl
      | some row =>
          have hRow : row.Writable limit :=
            h row List.mem_cons_self
          have hLast := Row.decodeLines_last path number hRow
          have hAll : allRows ⟨[], some row⟩ = [row] := rfl
          rw [hAll, List.zipIdx_singleton,
            List.filterMap_eq_flatMap_toList, List.flatMap_singleton]
          exact hLast
  | cons first rows ih =>
      rcases first with ⟨row, lineEnd⟩
      have hRow : row.Writable limit := h row List.mem_cons_self
      have hRest : Writable ⟨rows, last⟩ limit := fun other hMem =>
        h other (List.mem_cons_of_mem row hMem)
      have hChars :
          chars ⟨(row, lineEnd) :: rows, last⟩ =
            row.chars ++ (lineEnd.chars ++ chars ⟨rows, last⟩) := by
        simp [chars]
      have hAll :
          allRows ⟨(row, lineEnd) :: rows, last⟩ =
            row :: allRows ⟨rows, last⟩ :=
        rfl
      rcases Row.exists_line path lineEnd (chars ⟨rows, last⟩) hRow
        with ⟨line, hLines, hOutcome⟩
      rw [hChars, hLines, List.map_cons, Framing.decodeLines_cons,
        hOutcome, ih (number + 1) hRest, hAll, List.zipIdx_cons,
        List.filterMap_eq_flatMap_toList,
        List.filterMap_eq_flatMap_toList, List.flatMap_cons]

end RowText

------------------------------------------------------------
-- Round Trip
------------------------------------------------------------

/-
  Projects that are written in compact text, one on a line, with
  either end of a line, with or without an end of the last line
  and with blank lines anywhere, come back in order, each under
  the number of its line.  In any text, each line that is not
  blank has one outcome, which is that of the line alone.
-/
theorem line_documents_round_trip
    (limit : Nat)
    (path : String)
    (text : RowText)
    (hWritable : text.Writable limit) :
    plainLines.outcomes limit path (.ok (utf8 text.chars)) =
        text.outcomes path ∧
      ∀ framing : Framing,
        framing.lineByLine = true →
          framing.LineByLine limit path := by
  constructor
  · rw [Framing.outcomes_of_lineByLine limit path text.chars rfl]
    exact RowText.decodeLines_chars path 1 text.last text.rows
      hWritable
  · intro framing hLines
    exact Framing.decodes_lineByLine limit path hLines

/- A project without packages. -/
def emptyProject
    (name : String) : Tree :=
  .node .project
    [some (.text name), some (.list []), some (.list [])]

theorem writable_emptyProject
    (name : String) :
    (Row.project (emptyProject name)).Writable 2 := by
  have hShape : (emptyProject name).HasShape documentShape :=
    .node .project _
      (.present _ _ _ _ (.text name)
        (.present _ _ _ _ (.list _ _ (.nil _))
          (.present _ _ _ _ (.list _ _ (.nil _)) .nil)))
  have hCarried : (emptyProject name).CarriedOnly :=
    ⟨⟨rfl, trivial⟩, ⟨rfl, trivial⟩, ⟨rfl, trivial⟩, trivial⟩
  exact ⟨hShape, hCarried, Nat.le_refl 2⟩

/- Two projects around a blank line. -/
def twoProjects : RowText where
  rows :=
    [(.project (emptyProject "first\nrow"), .returnAndFeed),
     (.blank [' ', '\t'], .feed)]
  last := some (.project (emptyProject "last"))

/- The projects come back from the first line and the third. -/
theorem outcomes_twoProjects :
    String.ofList twoProjects.chars =
      "\x7b\"name\":\"first\\nrow\",\"languages\":[],"
        ++ "\"packages\":[]\x7d\r\n \t\n"
        ++ "\x7b\"name\":\"last\",\"languages\":[],"
        ++ "\"packages\":[]\x7d" ∧
    twoProjects.Writable 2 ∧
    plainLines.outcomes 2 "in" (.ok (utf8 twoProjects.chars)) =
      [⟨"in:1", .ok (emptyProject "first\nrow")⟩,
       ⟨"in:3", .ok (emptyProject "last")⟩] ∧
    ∀ framing : Framing,
      framing.lineByLine = true → framing.LineByLine 2 "in" := by
  have hBlank : (Row.blank [' ', '\t']).Writable 2 := by
    have hSpace : isBlank ' ' = true := isBlank_eq_any _
    have hTab : isBlank '\t' = true := isBlank_eq_any _
    exact ⟨by decide, List.forall_mem_cons.mpr
      ⟨hSpace, List.forall_mem_singleton.mpr hTab⟩⟩
  have hWritable : twoProjects.Writable 2 :=
    List.forall_mem_cons.mpr
      ⟨writable_emptyProject _, List.forall_mem_cons.mpr
        ⟨hBlank, List.forall_mem_singleton.mpr
          (writable_emptyProject _)⟩⟩
  have hTrip := line_documents_round_trip 2 "in" twoProjects hWritable
  refine ⟨rfl, hWritable, hTrip.1.trans ?_, hTrip.2⟩
  rfl

end TreeWire
