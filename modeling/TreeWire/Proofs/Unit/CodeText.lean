import TreeWire.Declaration.Literal
import TreeWire.Proofs.Schema.Fields
import TreeWire.Proofs.Unit.Literals

/-
  Reading the text of code.

  Code is read from its characters alone: strings are told from
  the rest by their quotes and comments by their slashes.  Where
  the code of a line has no quotes and slashes of its own, and a
  quoted text stands behind a blank or a bracket, reading the line
  gives back what the line quotes, and the rest as it was.

  Key definitions include:
    * `readCode?`
    * `blankStrings?`
    * `Reads`
    * `Readable`
    * `Line.IsCode`
    * `Line.IsComment`

  Main statements:
    * `quotedBody?_plain`
    * `reads_pieces`
    * `blankStrings?_lines`
-/

namespace TreeWire

open Declaration

------------------------------------------------------------
-- Code with Strings
------------------------------------------------------------

/- Whether a quote behind a character opens a plain string. -/
def opensString
    (previous : Char) : Bool :=
  !isIdentContinue previous && previous != '#'

/-
  Read code after a character, in so many steps at most: the code
  with nothing between its quotes, and the values of its strings.
  A comment goes to the end of its line.  A string with a prefix,
  a single quote and a longer comment are refused.
-/
def readCode? :
    (steps : Nat) →
    (previous : Char) →
    List Char →
    Option (List Char × List String)
  | 0, _, _ =>
      none
  | steps + 1, previous, cs =>
      match cs with
      | [] =>
          some ([], [])
      | '"' :: rest =>
          if opensString previous then
            (quotedBody? .text (rest.length + 1) [] rest).bind
              fun (body, rest) =>
                (readCode? steps '"' rest).map fun (code, values) =>
                  ('"' :: '"' :: code, String.ofList body :: values)
          else
            none
      | '\x27' :: _ =>
          none
      | '/' :: '*' :: _ =>
          none
      | '/' :: '/' :: rest =>
          (readCode? steps '/' (rest.dropWhile (· ≠ '\n'))).map
            fun (code, values) =>
              ('/' :: '/' :: rest.takeWhile (· ≠ '\n') ++ code, values)
      | c :: rest =>
          (readCode? steps c rest).map fun (code, values) =>
            (c :: code, values)

/- A text with its strings blanked out, and their values. -/
def blankStrings?
    (text : String) : Option (String × List String) :=
  (readCode? (text.length + 1) '\n' text.toList).map
    fun (code, values) => (String.ofList code, values)

/- What the reading of code gives, if it has the steps it needs. -/
def Reads
    (previous : Char)
    (cs code : List Char)
    (values : List String) : Prop :=
  ∀ steps, cs.length < steps →
    readCode? steps previous cs = some (code, values)

/- Whether a character stands for itself wherever it is in code. -/
def isCodeChar
    (c : Char) : Bool :=
  c != '"' && c != '\x27' && c != '/'

/- Whether a text is code without quotes and slashes. -/
def isPlainCode
    (text : String) : Bool :=
  text.toList.all isCodeChar

/- Whether a quoted text can stand behind a piece of code. -/
def endsOpen
    (text : String) : Bool :=
  text.toList.getLast?.any opensString

/-
  Pieces that can be read again, where a quoted text may come
  first or not.
-/
def Readable : (isOpen : Bool) → List Piece → Prop
  | _, [] =>
      True
  | _, .code text :: pieces =>
      isPlainCode text = true ∧ Readable (endsOpen text) pieces
  | _, .call method :: pieces =>
      isPlainCode method = true ∧ Readable false pieces
  | isOpen, .literal value :: pieces =>
      isOpen = true ∧ PlainName value ∧ Readable false pieces

/-
  Whether a line is code that can be read again.  The blanks in
  front of it, if it has any, may have a quoted text behind them.
-/
def Line.IsCode
    (line : Line) : Prop :=
  Readable (0 < line.depth) line.pieces

/- Whether a text is a comment that goes to the end of a line. -/
def isComment
    (text : String) : Bool :=
  "//".toList.isPrefixOf text.toList && text.toList.all (· != '\n')

/- Whether a line is a comment. -/
def Line.IsComment
    (line : Line) : Prop :=
  ∃ text, line.pieces = [.code text] ∧ isComment text = true

------------------------------------------------------------
-- Pieces of Code
------------------------------------------------------------

@[simp]
theorem isPlainCode_append
    (text other : String) :
    isPlainCode (text ++ other) =
      (isPlainCode text && isPlainCode other) := by
  rw [isPlainCode, String.toList_append, List.all_append]
  rfl

/- What a text ends with decides on what can stand behind it. -/
theorem endsOpen_append
    (text : String)
    {other : String}
    (h : endsOpen other = true) :
    endsOpen (text ++ other) = true := by
  rw [endsOpen] at h ⊢
  rcases Option.any_eq_true .. |>.mp h with ⟨c, hLast, hOpens⟩
  rw [String.toList_append, List.getLast?_append, hLast]
  exact hOpens

@[simp]
theorem isCode_mk
    (depth : Nat)
    (pieces : List Piece) :
    Line.IsCode ⟨depth, pieces⟩ ↔ Readable (0 < depth) pieces :=
  .rfl

@[simp]
theorem isCode_plain
    (depth : Nat)
    (text : String) :
    (Line.plain depth text).IsCode ↔ isPlainCode text = true :=
  and_iff_left trivial

------------------------------------------------------------
-- Characters of Code
------------------------------------------------------------

section

variable {previous c : Char} {cs code : List Char}
variable {values : List String}

theorem reads_nil
    (previous : Char) :
    Reads previous [] [] [] := by
  intro steps hSteps
  cases steps with
  | zero => cases hSteps
  | succ steps => rfl

/- A character that stands for itself. -/
theorem reads_cons
    (hChar : isCodeChar c = true)
    (h : Reads c cs code values) :
    Reads previous (c :: cs) (c :: code) values := by
  intro steps hSteps
  cases steps with
  | zero => cases hSteps
  | succ steps =>
      have hRest := h steps (Nat.lt_of_succ_lt_succ hSteps)
      rw [readCode?, hRest]
      · rfl
      · rintro rfl
        cases hChar
      · rintro rfl
        cases hChar
      · rintro _ rfl
        cases hChar
      · rintro _ rfl
        cases hChar

/- Code without quotes and slashes is read as it stands. -/
theorem reads_append
    {text : List Char}
    (hText : ∀ c ∈ text, isCodeChar c = true)
    (h : Reads (text.getLastD previous) cs code values) :
    Reads previous (text ++ cs) (text ++ code) values := by
  induction text generalizing previous with
  | nil => exact h
  | cons c text ih =>
      rw [List.forall_mem_cons] at hText
      rw [List.getLastD_cons] at h
      exact reads_cons hText.1 (ih hText.2 h)

/- A comment is read as it stands, up to the end of the line. -/
theorem reads_comment
    {text : List Char}
    (hText : '\n' ∉ text)
    (h : Reads '\n' cs code values) :
    Reads previous ('/' :: '/' :: text ++ '\n' :: cs)
      ('/' :: '/' :: text ++ '\n' :: code) values := by
  have hInside : ∀ c ∈ text, decide (c ≠ '\n') = true := by
    intro c hMem
    exact decide_eq_true fun hLine => hText (hLine ▸ hMem)
  have hTaken :
      (text ++ '\n' :: cs).takeWhile (· ≠ '\n') = text := by
    rw [List.takeWhile_append_of_pos hInside]
    exact List.append_nil text
  have hLeft :
      (text ++ '\n' :: cs).dropWhile (· ≠ '\n') = '\n' :: cs :=
    List.dropWhile_append_of_pos hInside
  have hLine : Reads '/' ('\n' :: cs) ('\n' :: code) values :=
    reads_cons (by decide) h
  intro steps hSteps
  cases steps with
  | zero => cases hSteps
  | succ steps =>
      have hRest := hLine steps (by
        simp only [List.length_append, List.length_cons] at hSteps ⊢
        omega)
      rw [List.cons_append, List.cons_append, readCode?, hTaken, hLeft,
        hRest]
      rfl

/- The body of a string that needs no escapes. -/
theorem quotedBody?_plain
    {value rest read : List Char}
    {steps : Nat}
    (hQuote : '"' ∉ value)
    (hSlash : '\\' ∉ value)
    (hReturn : '\r' ∉ value)
    (hSteps : value.length < steps) :
    quotedBody? .text steps read (value ++ '"' :: rest) =
      some (read.reverse ++ value, rest) := by
  induction value generalizing read steps with
  | nil =>
      cases steps with
      | zero => cases hSteps
      | succ steps =>
          rw [List.nil_append, quotedBody?, List.append_nil]
  | cons c value ih =>
      rw [List.mem_cons, not_or] at hQuote hSlash hReturn
      cases steps with
      | zero => cases hSteps
      | succ steps =>
          have hRest :
              quotedBody? .text steps (c :: read)
                  (value ++ '"' :: rest) =
                some ((c :: read).reverse ++ value, rest) :=
            ih hQuote.2 hSlash.2 hReturn.2
              (Nat.lt_of_succ_lt_succ hSteps)
          rw [List.cons_append, quotedBody?, hRest]
          · rw [if_neg (by simp [EscapeRules.text]), List.reverse_cons,
              List.append_assoc, List.singleton_append]
          · exact fun hSame => hQuote.1 hSame.symm
          · exact fun _ hSame => absurd hSame.symm hReturn.1
          · exact fun hSame => hReturn.1 hSame.symm
          · exact fun _ hSame => absurd hSame.symm hSlash.1
          · exact fun _ hSame => absurd hSame.symm hSlash.1
          · exact fun hSame => hSlash.1 hSame.symm

/- A quoted name is read as the name. -/
theorem reads_literal
    {value : String}
    (hOpen : opensString previous = true)
    (hValue : PlainName value)
    (h : Reads '"' cs code values) :
    Reads previous ('"' :: value.toList ++ '"' :: cs)
      ('"' :: '"' :: code) (value :: values) := by
  have hReturn : '\r' ∉ value.toList := by
    intro hMem
    exact hValue.uncontrolled '\r' hMem (.inl (by decide))
  intro steps hSteps
  cases steps with
  | zero => cases hSteps
  | succ steps =>
      have hRest := h steps (by
        simp only [List.length_append, List.length_cons] at hSteps
        omega)
      have hBody :
          quotedBody? .text ((value.toList ++ '"' :: cs).length + 1) []
              (value.toList ++ '"' :: cs) =
            some (value.toList, cs) := by
        apply quotedBody?_plain hValue.unquoted hValue.unescaped hReturn
        rw [List.length_append]
        omega
      rw [List.cons_append, readCode?, if_pos hOpen, hBody,
        Option.bind_some]
      dsimp only
      rw [hRest, String.ofList_toList]
      rfl

end

------------------------------------------------------------
-- Pieces and Lines
------------------------------------------------------------

/- The characters of pieces. -/
def piecesText
    (pieces : List Piece) : List Char :=
  pieces.flatMap fun p => p.text.toList

/- What stands on a line, without the blanks in front of it. -/
theorem toList_text
    (line : Line) :
    line.text.toList =
      (Line.indent line.depth).toList ++
        (piecesText line.pieces ++ ['\n']) := by
  rw [Line.text, String.toList_append, String.toList_append,
    String.toList_join, List.flatMap_map, List.append_assoc]
  rfl

/-
  Pieces that can be read again give what they quote, and the rest
  of them as it was.
-/
theorem reads_pieces
    {isOpen : Bool}
    {pieces : List Piece}
    {previous : Char}
    {cs code : List Char}
    {values : List String}
    (hOpen : isOpen = true → opensString previous = true)
    (hPieces : Readable isOpen pieces)
    (h : ∀ c, Reads c cs code values) :
    Reads previous (piecesText pieces ++ cs)
      (piecesText (pieces.map Piece.blanked) ++ code)
      (pieces.filterMap Piece.literal? ++ values) := by
  induction pieces generalizing isOpen previous with
  | nil => exact h previous
  | cons piece pieces ih =>
      rw [piecesText, List.map_cons, piecesText, List.flatMap_cons,
        List.flatMap_cons, List.append_assoc, List.append_assoc]
      cases piece with
      | code text =>
          apply reads_append (List.all_eq_true.mp hPieces.1)
          apply ih _ hPieces.2
          intro hEnds
          rcases Option.any_eq_true .. |>.mp hEnds with
            ⟨c, hLast, hOpens⟩
          rw [List.getLastD_eq_getLast?, hLast]
          exact hOpens
      | call method =>
          apply reads_append (List.all_eq_true.mp hPieces.1)
          exact ih (absurd · Bool.false_ne_true) hPieces.2
      | literal value =>
          have hText (value : String) :
              (Piece.literal value).text.toList =
                '"' :: value.toList ++ ['"'] := by
            rw [Piece.text, String.toList_append, String.toList_append]
            rfl
          rw [Piece.blanked, hText, hText, List.append_assoc,
            List.append_assoc]
          exact reads_literal (hOpen hPieces.1) hPieces.2.1
            (ih (absurd · Bool.false_ne_true) hPieces.2.2)

/- The blanks in front of a line are code, and open a string. -/
theorem toList_indent
    (depth : Nat) :
    (Line.indent depth).toList = List.replicate (4 * depth) ' ' := by
  induction depth with
  | zero => rfl
  | succ depth ih =>
      rw [Line.indent, String.toList_append, ih, Nat.mul_succ,
        Nat.add_comm, List.replicate_add]
      rfl

/- A line that can be read again. -/
theorem reads_line
    {line : Line}
    {previous : Char}
    {cs code : List Char}
    {values : List String}
    (hLine : line.IsCode ∨ line.IsComment)
    (h : Reads '\n' cs code values) :
    Reads previous (line.text.toList ++ cs)
      (line.blanked.text.toList ++ code) (line.literals ++ values) := by
  have hIndent :
      ∀ c ∈ (Line.indent line.depth).toList, isCodeChar c = true := by
    rw [toList_indent]
    intro c hMem
    rw [List.eq_of_mem_replicate hMem]
    decide
  rw [toList_text, toList_text, List.append_assoc, List.append_assoc,
    List.append_assoc, List.append_assoc]
  apply reads_append hIndent
  rcases hLine with hCode | ⟨text, hPieces, hText⟩
  · apply reads_pieces _ hCode
    · intro c
      exact reads_cons (by decide) h
    · intro hDeep
      rw [toList_indent, List.getLastD_eq_getLast?,
        List.getLast?_replicate, if_neg (by
          have hDepth := of_decide_eq_true hDeep
          omega)]
      exact (by decide : opensString ' ' = true)
  · have hOne : piecesText line.pieces = text.toList := by
      rw [hPieces]
      exact List.append_nil _
    have hBlanked : line.blanked.pieces = line.pieces := by
      rw [Line.blanked, hPieces]
      rfl
    have hNone : line.literals = [] := by
      rw [Line.literals, hPieces]
      rfl
    rw [isComment, Bool.and_eq_true, List.isPrefixOf_iff_prefix,
      List.all_eq_true] at hText
    rcases hText.1 with ⟨rest, hRest⟩
    have hLine : '\n' ∉ rest := by
      intro hMem
      have hNot := hText.2 '\n' (hRest ▸ List.mem_append_right _ hMem)
      exact absurd hNot (by decide)
    rw [hBlanked, hOne, hNone, ← hRest]
    exact reads_comment hLine h

/- The text of lines with the texts that they quote blanked out. -/
theorem blankStrings?_lines
    {lines : List Line}
    (h : ∀ line ∈ lines, line.IsCode ∨ line.IsComment) :
    blankStrings? (String.join (lines.map Line.text)) =
      some (String.join ((lines.map Line.blanked).map Line.text),
        literals lines) := by
  have hAll :
      Reads '\n' (lines.flatMap fun line => line.text.toList)
        (lines.flatMap fun line => line.blanked.text.toList)
        (literals lines) := by
    induction lines with
    | nil => exact reads_nil _
    | cons line lines ih =>
        rw [List.forall_mem_cons] at h
        exact reads_line h.1 (ih h.2)
  have hChars (lines : List Line) :
      (String.join (lines.map Line.text)).toList =
        lines.flatMap fun line => line.text.toList := by
    rw [String.toList_join, List.flatMap_map]
  have hBlanked :
      String.ofList (lines.flatMap fun line =>
          line.blanked.text.toList) =
        String.join ((lines.map Line.blanked).map Line.text) := by
    rw [← String.ofList_toList (s := String.join _), hChars,
      List.flatMap_map]
  rw [blankStrings?, hChars, hAll _ (by
      rw [← hChars, String.length_toList]
      exact Nat.lt_succ_self _), ← hBlanked]
  rfl

end TreeWire
