import TreeWire.DecodeError
import TreeWire.Proofs.Number.Digits

/-
  The texts of errors.

  An error is put into words without quoting, so that a key or a
  literal of a document may look like what stands around it.  But
  what the schema names is made of letters, digits and lines only.
  Such names end where the words around them go on.  So the path is
  read off a text, hop by hop, up to the arrow, and the cause off
  what is behind it: each cause begins in its own way, and what is
  free in it is alone between two names or at the end.

  Key definitions include:
    * `isName`
    * `isTypeName`
    * `Cause.Named`
    * `DecodeError.Named`
    * `Stops`

  Main statements:
    * `Cause.Named.message_inj`
    * `pathText_append_inj`
    * `DecodeError.Named.message_inj`
-/

namespace TreeWire

------------------------------------------------------------
-- Names
------------------------------------------------------------

/- Whether a character can stand in a name of the schema. -/
def isNameChar
    (c : Char) : Bool :=
  c.isAlphanum || c == '_'

/- Whether a text is made of letters, digits and lines. -/
def isName
    (text : String) : Bool :=
  text.toList.all isNameChar

/- Whether a text is a name and begins with a capital letter. -/
def isTypeName
    (text : String) : Bool :=
  isName text && text.toList.head?.any Char.isUpper

/- Whether a text is made of names, with spaces between them. -/
def isPhrase
    (text : String) : Bool :=
  text.toList.all fun c => isNameChar c || c == ' '

/-
  A literal is made of its characters.  Read as such, it can be
  looked at without being decoded.
-/
theorem isName_ofList
    {cs : List Char}
    (h : cs.all isNameChar = true) :
    isName (String.ofList cs) = true := by
  rw [isName, String.toList_ofList]
  exact h

theorem isTypeName_ofList
    {cs : List Char}
    (h : (cs.all isNameChar && cs.head?.any Char.isUpper) = true) :
    isTypeName (String.ofList cs) = true := by
  rw [isTypeName, isName, String.toList_ofList]
  exact h

theorem isPhrase_ofList
    {cs : List Char}
    (h : (cs.all fun c => isNameChar c || c == ' ') = true) :
    isPhrase (String.ofList cs) = true := by
  rw [isPhrase, String.toList_ofList]
  exact h

/-
  A cause in which names of the schema stand where they should.
  What comes from the input is free.
-/
def Cause.Named : Cause → Prop
  | .malformed _ _ => True
  | .unreadable _ => True
  | .unexpectedKey _ node => isName node = true
  | .typeMismatch expected _ => isPhrase expected = true
  | .emptyObject node => isTypeName node = true
  | .unknownVariant sum _ => isName sum = true
  | .misplacedTag tag _ => isName tag = true
  | .wrongVariant expected _ => isName expected = true
  | .invalidLiteral kind _ => isName kind = true
  | .missingField node key => isName node = true ∧ isName key = true
  | .wrongShape expected _ => isPhrase expected = true

/- A hop into a field that the schema names. -/
def Hop.Named : Hop → Prop
  | .field node key => isName node = true ∧ isName key = true
  | .index _ => True

/- An error of which cause and path are in names of the schema. -/
structure DecodeError.Named
    (e : DecodeError) : Prop where
  cause : e.cause.Named
  path : ∀ hop ∈ e.path, hop.Named

------------------------------------------------------------
-- Where Parts End
------------------------------------------------------------

/- Characters that do not go on with some kind of character. -/
def Stops
    (p : Char → Bool)
    (rest : List Char) : Prop :=
  ∀ c ∈ rest.head?, p c = false

theorem stops_cons
    {p : Char → Bool}
    {c : Char}
    (rest : List Char)
    (h : p c = false) :
    Stops p (c :: rest) := by
  intro d hHead
  cases hHead
  exact h

/- Two parts that stop in the same characters are the same. -/
theorem append_inj_of_stops
    {p : Char → Bool}
    {part other rest more : List Char}
    (h : part ++ rest = other ++ more)
    (hPart : ∀ c ∈ part, p c = true)
    (hOther : ∀ c ∈ other, p c = true)
    (hRest : Stops p rest)
    (hMore : Stops p more) :
    part = other ∧ rest = more := by
  induction part generalizing other with
  | nil =>
      cases other with
      | nil => exact ⟨rfl, h⟩
      | cons d other =>
          rw [List.nil_append] at h
          have hGoesOn := hOther d List.mem_cons_self
          rw [hRest d (by rw [h]; rfl)] at hGoesOn
          cases hGoesOn
  | cons c part ih =>
      cases other with
      | nil =>
          rw [List.nil_append] at h
          have hGoesOn := hPart c List.mem_cons_self
          rw [hMore c (by rw [← h]; rfl)] at hGoesOn
          cases hGoesOn
      | cons d other =>
          rw [List.cons_append, List.cons_append, List.cons.injEq] at h
          rw [List.forall_mem_cons] at hPart hOther
          rcases ih h.2 hPart.2 hOther.2 with ⟨hParts, hRests⟩
          exact ⟨by rw [h.1, hParts], hRests⟩

/- The same from the end. -/
theorem append_inj_of_stops_reverse
    {p : Char → Bool}
    {part other rest more : List Char}
    (h : rest ++ part = more ++ other)
    (hPart : ∀ c ∈ part, p c = true)
    (hOther : ∀ c ∈ other, p c = true)
    (hRest : Stops p rest.reverse)
    (hMore : Stops p more.reverse) :
    rest = more ∧ part = other := by
  have hReverse := congrArg List.reverse h
  rw [List.reverse_append, List.reverse_append] at hReverse
  rcases append_inj_of_stops hReverse (by simpa using hPart)
    (by simpa using hOther) hRest hMore with ⟨hParts, hRests⟩
  exact ⟨List.reverse_inj.mp hRests, List.reverse_inj.mp hParts⟩

/- The same for texts, and for what stands behind them. -/
theorem text_inj_of_stops
    {p : Char → Bool}
    {part other : String}
    {rest more : List Char}
    (h : part.toList ++ rest = other.toList ++ more)
    (hPart : part.toList.all p = true)
    (hOther : other.toList.all p = true)
    (hRest : Stops p rest)
    (hMore : Stops p more) :
    part = other ∧ rest = more := by
  rw [List.all_eq_true] at hPart hOther
  rcases append_inj_of_stops h hPart hOther hRest hMore with
    ⟨hTexts, hRests⟩
  exact ⟨String.toList_inj.mp hTexts, hRests⟩

/- Behind the same words, a name and what follows more words. -/
theorem name_inj_between
    {p : Char → Bool}
    {name other : String}
    {opening words rest more : List Char}
    (h :
      opening ++ (name.toList ++ (words ++ rest)) =
        opening ++ (other.toList ++ (words ++ more)))
    (hName : name.toList.all p = true)
    (hOther : other.toList.all p = true)
    (hWords : ∀ rest, Stops p (words ++ rest)) :
    name = other ∧ rest = more := by
  rcases text_inj_of_stops (List.append_cancel_left h) hName hOther
    (hWords rest) (hWords more) with ⟨hNames, hRests⟩
  exact ⟨hNames, List.append_cancel_left hRests⟩

/- Numbers stop where the digits do. -/
theorem number_inj_of_stops
    {n m : Nat}
    {rest more : List Char}
    (h : (toString n).toList ++ rest = (toString m).toList ++ more)
    (hRest : Stops Char.isDigit rest)
    (hMore : Stops Char.isDigit more) :
    n = m ∧ rest = more := by
  have hDigits :
      ∀ k : Nat, (toString k).toList.all Char.isDigit = true := by
    intro k
    rw [Nat.toString_eq_repr, Nat.repr, String.toList_ofList,
      List.all_eq_true]
    exact all_isDigit_toDigits k
  rcases text_inj_of_stops h (hDigits n) (hDigits m) hRest hMore with
    ⟨hTexts, hRests⟩
  refine ⟨?_, hRests⟩
  rw [← digitsValue_toDigits n, ← digitsValue_toDigits m]
  rw [Nat.toString_eq_repr, Nat.toString_eq_repr, Nat.repr, Nat.repr,
    String.ofList_inj] at hTexts
  rw [hTexts]

/- A position stops where its bracket closes. -/
theorem Position.text_append_inj
    {place other : Position}
    {rest more : List Char}
    (h : place.text.toList ++ rest = other.text.toList ++ more) :
    place = other ∧ rest = more := by
  simp only [Position.text, String.toList_append,
    List.append_assoc] at h
  have hLine := List.append_cancel_left h
  rcases number_inj_of_stops hLine (stops_cons _ rfl)
    (stops_cons _ rfl) with ⟨hLines, hBehind⟩
  have hColumn := List.append_cancel_left hBehind
  rcases number_inj_of_stops hColumn (stops_cons _ rfl)
    (stops_cons _ rfl) with ⟨hColumns, hBehind⟩
  have hOffset := List.append_cancel_left hBehind
  rcases number_inj_of_stops hOffset (stops_cons _ rfl)
    (stops_cons _ rfl) with ⟨hOffsets, hBehind⟩
  refine ⟨?_, List.append_cancel_left hBehind⟩
  cases place
  cases other
  cases hLines
  cases hColumns
  cases hOffsets
  rfl

------------------------------------------------------------
-- Causes
------------------------------------------------------------

namespace Cause

/- The characters of a cause in words. -/
def chars : Cause → List Char
  | .malformed text none =>
      "malformed input: ".toList ++ text.toList
  | .malformed text (some place) =>
      "malformed input at ".toList
        ++ (place.text.toList ++ (": ".toList ++ text.toList))
  | .unreadable text =>
      "read failed: ".toList ++ text.toList
  | .unexpectedKey key node =>
      "unexpected key \"".toList
        ++ (key.toList ++ ("\" in ".toList ++ node.toList))
  | .typeMismatch expected found =>
      "type mismatch: expected ".toList
        ++ (expected.toList ++ (", found ".toList ++ found.toList))
  | .emptyObject node =>
      node.toList ++ (" cannot be decoded from \x7b\x7d: ".toList
        ++ "its discriminant is missing".toList)
  | .unknownVariant sum name =>
      "unknown ".toList
        ++ (sum.toList
          ++ (" variant \"".toList ++ (name.toList ++ "\"".toList)))
  | .misplacedTag tag found =>
      "discriminant \"".toList
        ++ (tag.toList
          ++ ("\" must be the first key, found ".toList
            ++ found.toList))
  | .wrongVariant expected found =>
      "expected variant \"".toList
        ++ (expected.toList
          ++ ("\", found \"".toList ++ (found.toList ++ "\"".toList)))
  | .invalidLiteral kind text =>
      "invalid ".toList
        ++ (kind.toList
          ++ (" literal `".toList ++ (text.toList ++ "`".toList)))
  | .missingField node key =>
      "missing field \"".toList
        ++ (key.toList ++ ("\" in ".toList ++ node.toList))
  | .wrongShape expected found =>
      "wrong shape: expected ".toList
        ++ (expected.toList ++ (", found ".toList ++ found.toList))

theorem toList_message
    (c : Cause) :
    c.message.toList = c.chars := by
  cases c with
  | malformed text position =>
      cases position <;>
        (delta message
         simp only [String.toList_append, List.append_assoc]
         rfl)
  | _ =>
      delta message
      simp only [String.toList_append, List.append_assoc]
      rfl

/- The number of a cause, by what it is. -/
def index : Cause → Nat
  | .malformed _ _ => 0
  | .unreadable _ => 1
  | .unexpectedKey _ _ => 2
  | .typeMismatch _ _ => 3
  | .emptyObject _ => 4
  | .unknownVariant _ _ => 5
  | .misplacedTag _ _ => 6
  | .wrongVariant _ _ => 7
  | .invalidLiteral _ _ => 8
  | .missingField _ _ => 9
  | .wrongShape _ _ => 10

/- The number of a cause, by the first letters of its text. -/
def indexOf : List Char → Nat
  | 'm' :: 'a' :: _ => 0
  | 'r' :: _ => 1
  | 'u' :: 'n' :: 'e' :: _ => 2
  | 't' :: _ => 3
  | 'u' :: 'n' :: 'k' :: _ => 5
  | 'd' :: _ => 6
  | 'e' :: _ => 7
  | 'i' :: _ => 8
  | 'm' :: 'i' :: _ => 9
  | 'w' :: _ => 10
  | _ => 4

/- No other cause begins with a capital letter. -/
theorem indexOf_of_isUpper
    {c : Char}
    (cs : List Char)
    (h : c.isUpper = true) :
    indexOf (c :: cs) = 4 := by
  have hOther : ∀ d ∈ "mrutdeiw".toList, c ≠ d := by
    intro d hMem hEq
    have hSmall : "mrutdeiw".toList.all (!·.isUpper) = true := by
      decide
    have hChar := List.all_eq_true.mp hSmall d hMem
    rw [← hEq, h] at hChar
    cases hChar
  rw [indexOf.eq_11] <;>
    (intros
     rename_i hEq
     exact hOther _ (by decide) (List.cons.inj hEq).1)

/- Each cause begins in its own way. -/
theorem Named.indexOf_chars
    {c : Cause}
    (h : c.Named) :
    indexOf c.chars = c.index := by
  cases c with
  | malformed text position => cases position <;> rfl
  | emptyObject node =>
      have hStart : node.toList.head?.any Char.isUpper = true :=
        (Bool.and_eq_true_iff.mp h).2
      change indexOf (node.toList ++ _) = 4
      cases hChars : node.toList with
      | nil =>
          rw [hChars] at hStart
          cases hStart
      | cons c cs =>
          rw [hChars] at hStart
          exact indexOf_of_isUpper _ hStart
  | _ => rfl

/- A position is told by what stands behind the first words. -/
theorem malformed_inj
    {text other : String}
    {position place : Option Position}
    (h :
      (malformed text position).chars = (malformed other place).chars) :
    text = other ∧ position = place := by
  have hSplit :
      "malformed input at ".toList = "malformed input".toList ++
        " at ".toList := by
    decide
  have hShort :
      "malformed input: ".toList = "malformed input".toList ++
        ": ".toList := by
    decide
  have hApart (rest more : List Char) :
      "malformed input at ".toList ++ rest ≠
        "malformed input: ".toList ++ more := by
    intro hEq
    rw [hSplit, hShort, List.append_assoc, List.append_assoc] at hEq
    have hBehind := List.append_cancel_left hEq
    exact absurd (List.head_eq_of_cons_eq hBehind) (by decide)
  cases position with
  | none =>
      cases place with
      | none =>
          have hText := List.append_cancel_left h
          exact ⟨String.toList_inj.mp hText, rfl⟩
      | some place => exact absurd h.symm (hApart _ _)
  | some position =>
      cases place with
      | none => exact absurd h (hApart _ _)
      | some place =>
          have hBehind := List.append_cancel_left h
          rcases Position.text_append_inj hBehind with ⟨rfl, hText⟩
          have hSame := List.append_cancel_left hText
          exact ⟨String.toList_inj.mp hSame, rfl⟩

/- A key may be anything, as the name behind it holds no space. -/
theorem unexpectedKey_inj
    {key node key' node' : String}
    (hNode : isName node = true)
    (hNode' : isName node' = true)
    (h :
      (unexpectedKey key node).chars =
        (unexpectedKey key' node').chars) :
    key = key' ∧ node = node' := by
  have hBehind := List.append_cancel_left h
  rw [← List.append_assoc, ← List.append_assoc] at hBehind
  rw [isName, List.all_eq_true] at hNode hNode'
  have hStops (key : String) :
      Stops isNameChar (key.toList ++ "\" in ".toList).reverse := by
    rw [List.reverse_append]
    exact stops_cons _ rfl
  rcases append_inj_of_stops_reverse hBehind hNode hNode' (hStops key)
    (hStops key') with ⟨hKeys, hNodes⟩
  exact ⟨String.toList_inj.mp (List.append_cancel_right hKeys),
    String.toList_inj.mp hNodes⟩

/- A cause is read off its text. -/
theorem Named.chars_inj
    {c d : Cause}
    (hc : c.Named)
    (hd : d.Named)
    (h : c.chars = d.chars) :
    c = d := by
  have hIndex : c.index = d.index := by
    rw [← hc.indexOf_chars, h, hd.indexOf_chars]
  cases c with
  | malformed text position =>
      cases d with
      | malformed other place =>
          rcases malformed_inj h with ⟨rfl, rfl⟩
          rfl
      | _ => cases hIndex
  | unreadable text =>
      cases d with
      | unreadable other =>
          have hText := List.append_cancel_left h
          rw [String.toList_inj.mp hText]
      | _ => cases hIndex
  | unexpectedKey key node =>
      cases d with
      | unexpectedKey key' node' =>
          rcases unexpectedKey_inj hc hd h with ⟨rfl, rfl⟩
          rfl
      | _ => cases hIndex
  | typeMismatch expected found =>
      cases d with
      | typeMismatch expected' found' =>
          rcases name_inj_between h hc hd fun _ => stops_cons _ rfl with
            ⟨rfl, hFound⟩
          rw [String.toList_inj.mp hFound]
      | _ => cases hIndex
  | emptyObject node =>
      cases d with
      | emptyObject node' =>
          rcases text_inj_of_stops h (Bool.and_eq_true_iff.mp hc).1
            (Bool.and_eq_true_iff.mp hd).1 (stops_cons _ rfl)
            (stops_cons _ rfl) with ⟨rfl, _⟩
          rfl
      | _ => cases hIndex
  | unknownVariant sum name =>
      cases d with
      | unknownVariant sum' name' =>
          rcases name_inj_between h hc hd fun _ => stops_cons _ rfl with
            ⟨rfl, hName⟩
          rw [String.toList_inj.mp (List.append_cancel_right hName)]
      | _ => cases hIndex
  | misplacedTag tag found =>
      cases d with
      | misplacedTag tag' found' =>
          rcases name_inj_between h hc hd fun _ => stops_cons _ rfl with
            ⟨rfl, hFound⟩
          rw [String.toList_inj.mp hFound]
      | _ => cases hIndex
  | wrongVariant expected found =>
      cases d with
      | wrongVariant expected' found' =>
          rcases name_inj_between h hc hd fun _ => stops_cons _ rfl with
            ⟨rfl, hFound⟩
          rw [String.toList_inj.mp (List.append_cancel_right hFound)]
      | _ => cases hIndex
  | invalidLiteral kind text =>
      cases d with
      | invalidLiteral kind' text' =>
          rcases name_inj_between h hc hd fun _ => stops_cons _ rfl with
            ⟨rfl, hText⟩
          rw [String.toList_inj.mp (List.append_cancel_right hText)]
      | _ => cases hIndex
  | missingField node key =>
      cases d with
      | missingField node' key' =>
          rcases name_inj_between h hc.2 hd.2
            fun _ => stops_cons _ rfl with ⟨rfl, hNode⟩
          rw [String.toList_inj.mp hNode]
      | _ => cases hIndex
  | wrongShape expected found =>
      cases d with
      | wrongShape expected' found' =>
          rcases name_inj_between h hc hd fun _ => stops_cons _ rfl with
            ⟨rfl, hFound⟩
          rw [String.toList_inj.mp hFound]
      | _ => cases hIndex

/- No cause begins as a path does. -/
theorem Named.chars_ne_path
    {c : Cause}
    (h : c.Named)
    (rest : List Char) :
    c.chars ≠ "at ".toList ++ rest := by
  have hOther : indexOf ("at ".toList ++ rest) = 4 := rfl
  intro hEq
  have hIndex := h.indexOf_chars
  rw [hEq, hOther] at hIndex
  cases c with
  | emptyObject node =>
      have hStart : node.toList.head?.any Char.isUpper = true :=
        (Bool.and_eq_true_iff.mp h).2
      change node.toList ++ _ = _ at hEq
      cases hChars : node.toList with
      | nil =>
          rw [hChars] at hStart
          cases hStart
      | cons c cs =>
          rw [hChars] at hStart hEq
          have hSmall : c = 'a' := List.head_eq_of_cons_eq hEq
          rw [hSmall] at hStart
          cases hStart
  | _ => cases hIndex

end Cause

------------------------------------------------------------
-- Paths
------------------------------------------------------------

namespace Hop

/- The characters of a hop without the mark in front of it. -/
def chars : Hop → List Char
  | .field node key =>
      node.toList ++ (".".toList ++ key.toList)
  | .index i =>
      "[".toList ++ ((toString i).toList ++ "]".toList)

/- The mark between a hop and the one before it. -/
def markChars : Hop → List Char
  | .field _ _ => " > ".toList
  | .index _ => []

theorem toList_hopText_first
    (hop : Hop) :
    (DecodeError.hopText true hop).toList = hop.chars := by
  cases hop with
  | field node key =>
      change ("" ++ node ++ "." ++ key).toList = _
      simp only [String.toList_append, List.append_assoc]
      rfl
  | index i =>
      change ("[" ++ toString i ++ "]").toList = _
      simp only [String.toList_append, List.append_assoc]
      rfl

theorem toList_hopText
    (hop : Hop) :
    (DecodeError.hopText false hop).toList =
      hop.markChars ++ hop.chars := by
  cases hop with
  | field node key =>
      change (" > " ++ node ++ "." ++ key).toList = _
      simp only [String.toList_append, List.append_assoc]
      rfl
  | index i => exact toList_hopText_first (.index i)

/- The characters of hops that are behind others. -/
def laterChars
    (hops : List Hop) : List Char :=
  hops.flatMap fun hop => hop.markChars ++ hop.chars

/- A name stops at what follows a hop. -/
theorem stops_laterChars
    (hops : List Hop)
    {rest : List Char}
    (h : Stops isNameChar rest) :
    Stops isNameChar (laterChars hops ++ rest) := by
  cases hops with
  | nil => exact h
  | cons hop hops =>
      cases hop with
      | field node key => exact stops_cons _ rfl
      | index i => exact stops_cons _ rfl

/- A hop ends where no name goes on. -/
theorem Named.chars_append_inj
    {hop other : Hop}
    {rest more : List Char}
    (hHop : hop.Named)
    (hOther : other.Named)
    (hRest : Stops isNameChar rest)
    (hMore : Stops isNameChar more)
    (h : hop.chars ++ rest = other.chars ++ more) :
    hop = other ∧ rest = more := by
  have hApart
      {node key : String}
      {i : Nat}
      {rest more : List Char}
      (hNode : isName node = true)
      (h : (field node key).chars ++ rest =
        (index i).chars ++ more) :
      False := by
    simp only [chars, List.append_assoc] at h
    rw [isName, List.all_eq_true] at hNode
    rcases append_inj_of_stops
      (h.trans (List.nil_append _).symm) hNode
      (List.forall_mem_nil _) (stops_cons _ rfl) (stops_cons _ rfl)
      with ⟨_, hBehind⟩
    exact absurd (List.head_eq_of_cons_eq hBehind) (by decide)
  cases hop with
  | field node key =>
      cases other with
      | field node' key' =>
          simp only [chars, List.append_assoc] at h
          rcases text_inj_of_stops h hHop.1 hOther.1
            (stops_cons _ rfl) (stops_cons _ rfl) with ⟨rfl, hKey⟩
          rcases text_inj_of_stops (List.append_cancel_left hKey)
            hHop.2 hOther.2 hRest hMore with ⟨rfl, hRests⟩
          exact ⟨rfl, hRests⟩
      | index i => exact (hApart hHop.1 h).elim
  | index i =>
      cases other with
      | field node key => exact (hApart hOther.1 h.symm).elim
      | index j =>
          simp only [chars, List.append_assoc] at h
          rcases number_inj_of_stops (List.append_cancel_left h)
            (stops_cons _ rfl) (stops_cons _ rfl) with ⟨rfl, hRests⟩
          exact ⟨rfl, List.append_cancel_left hRests⟩

/- Hops behind others are told apart up to the arrow. -/
theorem laterChars_append_inj
    {hops others : List Hop}
    {rest more : List Char}
    (hHops : ∀ hop ∈ hops, hop.Named)
    (hOthers : ∀ hop ∈ others, hop.Named)
    (h :
      laterChars hops ++ (" → ".toList ++ rest) =
        laterChars others ++ (" → ".toList ++ more)) :
    hops = others ∧ rest = more := by
  have hArrow (rest : List Char) :
      Stops isNameChar (" → ".toList ++ rest) :=
    stops_cons _ rfl
  -- An arrow is neither the mark of a field nor that of an index.
  have hEnd
      {hop : Hop}
      {hops : List Hop}
      {rest more : List Char}
      (h :
        laterChars (hop :: hops) ++ rest = " → ".toList ++ more) :
      False := by
    cases hop with
    | field node key =>
        have hBehind := List.tail_eq_of_cons_eq h
        exact absurd (List.head_eq_of_cons_eq hBehind) (by decide)
    | index i => exact absurd (List.head_eq_of_cons_eq h) (by decide)
  induction hops generalizing others with
  | nil =>
      cases others with
      | nil => exact ⟨rfl, List.append_cancel_left h⟩
      | cons other others => exact (hEnd h.symm).elim
  | cons hop hops ih =>
      cases others with
      | nil => exact (hEnd h).elim
      | cons other others =>
          rw [List.forall_mem_cons] at hHops hOthers
          have hMarks : hop.markChars = other.markChars := by
            cases hop <;> cases other <;> first
              | rfl
              | exact absurd (List.head_eq_of_cons_eq h) (by decide)
          simp only [laterChars, List.flatMap_cons,
            List.append_assoc, hMarks] at h
          rcases hHops.1.chars_append_inj hOthers.1
            (stops_laterChars _ (hArrow _))
            (stops_laterChars _ (hArrow _))
            (List.append_cancel_left h) with ⟨rfl, hLater⟩
          rcases ih hHops.2 hOthers.2 hLater with ⟨rfl, hRests⟩
          exact ⟨rfl, hRests⟩

end Hop

------------------------------------------------------------
-- Errors
------------------------------------------------------------

namespace DecodeError

/- An error in characters, if it has a path. -/
theorem toList_message_of_path
    (cause : Cause)
    (hop : Hop)
    (hops : List Hop) :
    (message ⟨cause, hop :: hops⟩).toList =
      "at ".toList ++ (hop.chars ++ (Hop.laterChars hops ++
        (" → ".toList ++ cause.chars))) := by
  change ("at " ++ (hopText true hop ++
    String.join (hops.map (hopText false))) ++ " → " ++
      cause.message).toList = _
  simp only [String.toList_append, List.append_assoc,
    Hop.toList_hopText_first, Cause.toList_message, String.toList_join,
    List.flatMap_map, Hop.toList_hopText]
  rfl

/- An error is read off its text. -/
theorem Named.message_inj
    {e d : DecodeError}
    (he : e.Named)
    (hd : d.Named)
    (h : e.message = d.message) :
    e = d := by
  have hChars := congrArg String.toList h
  rcases e with ⟨cause, path⟩
  rcases d with ⟨cause', path'⟩
  cases path with
  | nil =>
      change cause.message.toList = _ at hChars
      rw [Cause.toList_message] at hChars
      cases path' with
      | nil =>
          change _ = cause'.message.toList at hChars
          rw [Cause.toList_message] at hChars
          have hCause : cause = cause' :=
            he.cause.chars_inj hd.cause hChars
          rw [hCause]
      | cons hop hops =>
          rw [toList_message_of_path] at hChars
          exact absurd hChars (he.cause.chars_ne_path _)
  | cons hop hops =>
      rw [toList_message_of_path] at hChars
      cases path' with
      | nil =>
          change _ = cause'.message.toList at hChars
          rw [Cause.toList_message] at hChars
          exact absurd hChars.symm (hd.cause.chars_ne_path _)
      | cons hop' hops' =>
          rw [toList_message_of_path] at hChars
          have hPath := List.forall_mem_cons.mp he.path
          have hPath' := List.forall_mem_cons.mp hd.path
          have hArrow (rest : List Char) :
              Stops isNameChar (" → ".toList ++ rest) :=
            stops_cons _ rfl
          rcases hPath.1.chars_append_inj hPath'.1
            (Hop.stops_laterChars _ (hArrow _))
            (Hop.stops_laterChars _ (hArrow _))
            (List.append_cancel_left hChars) with ⟨rfl, hLater⟩
          rcases Hop.laterChars_append_inj hPath.2 hPath'.2 hLater with
            ⟨rfl, hCauses⟩
          have hCause : cause = cause' :=
            he.cause.chars_inj hd.cause hCauses
          rw [hCause]

end DecodeError

end TreeWire
