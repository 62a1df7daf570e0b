import TreeWire.Proofs.Source.Assembly
import TreeWire.Proofs.Source.Sessions

/-
  The errors of the input itself.

  A lexing fails because the input is malformed or cannot be
  read, and so does every step of a scanner or a walk.  Such an
  error says nothing about the value being decoded and has no
  path yet.

  A step of a scanner that fails has not opened or closed a
  container.  It leaves the scanner at the point where it was,
  or behind a comma.

  Whatever is called, the stream of such a machine fails on its
  input only.

  Key definitions include:
    * `DecodeError.OfInput`
    * `Lexeme.FailsOnInput`
    * `Scanner.FailsInPlace`
    * `Stream.FailsOnInput`

  Main statements:
    * `Lexeme.Built.failsOnInput`
    * `Scanner.token_error`
    * `ValueWalk.step_error`
    * `Stream.FailsOnInput.session`
-/

namespace TreeWire

------------------------------------------------------------
-- Errors of the Input
------------------------------------------------------------

/- An error that the input itself is the cause of. -/
inductive DecodeError.OfInput : DecodeError → Prop where
  | malformed
      (message : String)
      (position : Option Position) :
      OfInput (.here (.malformed message position))
  | unreadable
      (message : String) :
      OfInput (.here (.unreadable message))

------------------------------------------------------------
-- Lexings
------------------------------------------------------------

namespace Lexeme

variable {α : Type}

/- All errors of a lexing are errors of the input. -/
def FailsOnInput
    (action : Lexing α) : Prop :=
  ∀ ⦃c e c'⦄, action c = (.error e, c') → e.OfInput

theorem Built.failsOnInput
    {action : Lexing α}
    (h : Built action) :
    FailsOnInput action := by
  intro c e c' hError
  cases h.error hError with
  | malformed _ position => exact .malformed _ position
  | unreadable message => exact .unreadable message

end Lexeme

------------------------------------------------------------
-- Scannings
------------------------------------------------------------

namespace Scanner

variable {α : Type}
variable {s s' : Scanner}
variable {e : DecodeError}

/-
  All errors of a scanning are errors of the input, and it fails
  at the point of the grammar where it started.
-/
def FailsInPlace
    (action : Scanning α) : Prop :=
  ∀ ⦃s e s'⦄, action s = (.error e, s') →
    e.OfInput ∧ ∃ c, s' = s.moved c s.point

theorem failsInPlace_lex
    {action : Lexing α}
    (h : Lexeme.Built action) :
    FailsInPlace (lex action) := by
  intro s e s' hLex
  unfold lex at hLex
  rcases hResult : action s.cursor with ⟨result, c⟩
  rw [hResult] at hLex
  cases hLex
  exact ⟨h.failsOnInput hResult, c, rfl⟩

/- A lexing, and what follows it. -/
theorem failsInPlace_lex_bind
    {β : Type}
    {action : Lexing α}
    {f : α → Scanning β}
    (hAction : Lexeme.Built action)
    (hRest : ∀ a, FailsInPlace (f a)) :
    FailsInPlace (lex action >>= f) := by
  intro s e s' h
  rcases Action.bind_eq_error_iff.mp h with hLex | ⟨a, s₁, hLex, hf⟩
  · exact failsInPlace_lex hAction hLex
  · rcases lex_eq_ok_iff.mp hLex with ⟨c, _, rfl⟩
    rcases hRest a hf with ⟨hInput, c', hMoved⟩
    exact ⟨hInput, c', hMoved⟩

/- What never fails. -/
theorem failsInPlace_of_ok
    {action : Scanning α}
    (h : ∀ s, ∃ a s', action s = (.ok a, s')) :
    FailsInPlace action := by
  intro s e s' hError
  rcases h s with ⟨a, s₁, hOk⟩
  rw [hOk] at hError
  cases hError

theorem failsInPlace_malformed
    (message : String) :
    FailsInPlace (malformed (α := α) message) := by
  intro s e s' h
  cases h
  exact ⟨.malformed message _, s.cursor, rfl⟩

theorem failsInPlace_literal
    {lexeme : Lexing Literal}
    (h : Lexeme.Built lexeme) :
    FailsInPlace (literal lexeme) :=
  failsInPlace_lex_bind h fun _ =>
    failsInPlace_of_ok fun _ => ⟨_, _, rfl⟩

theorem failsInPlace_open
    (frame : Frame)
    (stage : Stage)
    (mark : Token) :
    FailsInPlace
      (do
        openContainer frame stage
        pure mark : Scanning Token) := by
  intro s e s' h
  rcases Action.bind_eq_error_iff.mp h with hOpen | ⟨_, _, _, hPure⟩
  · rcases Action.bind_eq_error_iff.mp hOpen with
      hGet | ⟨s₁, s₂, hGet, hBranch⟩
    · cases hGet
    · cases hGet
      split at hBranch
      · exact failsInPlace_malformed _ hBranch
      · exact failsInPlace_lex_bind .bump
          (fun _ => failsInPlace_of_ok fun _ => ⟨_, _, rfl⟩) hBranch
  · cases hPure

theorem failsInPlace_closeContainer
    (mark : Token) :
    FailsInPlace (closeContainer mark) :=
  failsInPlace_lex_bind .bump fun _ =>
    failsInPlace_of_ok fun _ => ⟨_, _, rfl⟩

theorem failsInPlace_value :
    FailsInPlace value := by
  refine failsInPlace_lex_bind .peek fun next => ?_
  split
  · exact failsInPlace_open _ _ _
  · exact failsInPlace_open _ _ _
  · exact failsInPlace_literal
      (.bind Lexeme.built_string fun _ => .pure _)
  · exact failsInPlace_literal (Lexeme.built_word _ _)
  · exact failsInPlace_literal (Lexeme.built_word _ _)
  · exact failsInPlace_literal (Lexeme.built_word _ _)
  · split
    · exact failsInPlace_literal Lexeme.built_number
    · exact failsInPlace_malformed _
  · exact failsInPlace_malformed _

theorem failsInPlace_key
    (next : Option UInt8) :
    FailsInPlace (key next) := by
  unfold key
  split
  · refine failsInPlace_lex_bind Lexeme.built_string
      fun _ => failsInPlace_lex_bind Lexeme.built_blanks
        fun after => ?_
    split
    · exact failsInPlace_lex_bind .bump
        fun _ => failsInPlace_of_ok fun _ => ⟨_, _, rfl⟩
    · exact failsInPlace_malformed _
  · exact failsInPlace_malformed _

------------------------------------------------------------
-- Steps That Fail
------------------------------------------------------------

/-
  What is allowed next where a step fails: what was allowed
  before it, or what has to follow a comma.
-/
inductive StageOnFailure : Stage → Stage → Prop where
  | same
      (stage : Stage) :
      StageOnFailure stage stage
  | key :
      StageOnFailure .afterMember .key
  | element :
      StageOnFailure .afterElement .element

/- A step has failed, with the open containers as they were. -/
def FailsWith
    (s : Scanner)
    (e : DecodeError)
    (s' : Scanner) : Prop :=
  e.OfInput ∧
    ∃ c stage,
      s' = s.moved c ⟨stage, s.frames⟩ ∧
        StageOnFailure s.stage stage

/- A failure behind blanks. -/
theorem FailsInPlace.failsWith
    {action : Scanning α}
    {c : Cursor}
    (hAction : FailsInPlace action)
    (h : action (s.moved c s.point) = (.error e, s')) :
    FailsWith s e s' := by
  rcases hAction h with ⟨hInput, c', rfl⟩
  exact ⟨hInput, c', s.stage, rfl, .same _⟩

/- A failure at a comma or behind it. -/
theorem comma_failsWith
    {stage : Stage}
    {rest : Option UInt8 → Scanning Token}
    {c : Cursor}
    (hStage : StageOnFailure s.stage stage)
    (hRest : ∀ next, FailsInPlace (rest next))
    (h :
      (do
        let _ ← lex Cursor.bump
        setStage stage
        let next ← lex Lexeme.blanks
        rest next : Scanning Token) (s.moved c s.point) =
          (.error e, s')) :
    FailsWith s e s' := by
  rcases Action.bind_eq_error_iff.mp h with
    hBump | ⟨next, s₁, hBump, h⟩
  · exact (failsInPlace_lex .bump).failsWith
      hBump
  · rcases lex_eq_ok_iff.mp hBump with ⟨c₁, _, rfl⟩
    rcases Action.bind_eq_error_iff.mp h with
      hSet | ⟨_, s₂, hSet, h⟩
    · cases hSet
    · cases hSet
      rcases failsInPlace_lex_bind Lexeme.built_blanks hRest h
        with ⟨hInput, c₂, rfl⟩
      exact ⟨hInput, c₂, stage, rfl, hStage⟩

/-
  A step that fails leaves the open containers as they were, and
  its error is one of the input.
-/
theorem token_error
    (h : token s = (.error e, s')) :
    FailsWith s e s' := by
  unfold token at h
  rcases Action.bind_eq_error_iff.mp h with
    hBlanks | ⟨next, s₁, hBlanks, h⟩
  · exact (failsInPlace_lex Lexeme.built_blanks).failsWith
      (c := s.cursor) hBlanks
  · rcases lex_eq_ok_iff.mp hBlanks with ⟨c, _, rfl⟩
    rcases Action.bind_eq_error_iff.mp h with
      hGet | ⟨s₁, s₂, hGet, h⟩
    · cases hGet
    · cases hGet
      rcases s with ⟨cursor, frames, stage, maxDepth⟩
      cases stage with
      | topValue => exact failsInPlace_value.failsWith h
      | topDone =>
          dsimp only [moved, point] at h
          split at h
          · cases h
          · exact (failsInPlace_malformed _).failsWith h
      | firstKey =>
          dsimp only [moved, point] at h
          split at h
          · exact (failsInPlace_closeContainer _).failsWith h
          · exact (failsInPlace_key _).failsWith h
      | key => exact (failsInPlace_key _).failsWith h
      | memberValue => exact failsInPlace_value.failsWith h
      | afterMember =>
          dsimp only [moved, point] at h
          split at h
          · exact (failsInPlace_closeContainer _).failsWith h
          · split at h
            · exact comma_failsWith .key failsInPlace_key h
            · exact (failsInPlace_malformed _).failsWith h
      | firstElement =>
          dsimp only [moved, point] at h
          split at h
          · exact (failsInPlace_closeContainer _).failsWith h
          · exact failsInPlace_value.failsWith h
      | element => exact failsInPlace_value.failsWith h
      | afterElement =>
          dsimp only [moved, point] at h
          split at h
          · exact (failsInPlace_closeContainer _).failsWith h
          · split at h
            · exact comma_failsWith .element
                (fun _ => failsInPlace_value) h
            · exact (failsInPlace_malformed _).failsWith h

end Scanner

namespace ValueWalk

/- A walk fails for the limit of nesting only. -/
theorem step_error
    {w w' : ValueWalk}
    {e : DecodeError}
    (h : step w = (.error e, w')) :
    e.OfInput := by
  by_cases hStack : w.stack = []
  · rw [step_of_nil hStack] at h
    cases h
  · have hEnters := step_enters hStack
    rw [h] at hEnters
    cases hEnters with
    | tooDeep => exact .malformed _ none

end ValueWalk

------------------------------------------------------------
-- Streams That Fail on Their Input
------------------------------------------------------------

namespace Stream

variable {μ : Type} [TokenMachine μ]
variable {s s₁ : Stream μ}
variable {t : Token}
variable {e : DecodeError}

/- Whatever is read, the stream fails on its input only. -/
def FailsOnInput
    (s : Stream μ) : Prop :=
  ∀ ⦃ts s₁ e s₂⦄,
    s.Delivers ts s₁ → s₁.next = (.error e, s₂) → e.OfInput

namespace FailsOnInput

theorem error
    (h : s.FailsOnInput)
    (hNext : s.next = (.error e, s₁)) :
    e.OfInput :=
  h (.nil s) hNext

theorem next
    (h : s.FailsOnInput)
    (hNext : s.next = (.ok t, s₁)) :
    s₁.FailsOnInput :=
  fun _ _ _ _ hDelivers => h (.cons hNext hDelivers)

theorem hold
    (h : s.FailsOnInput)
    (hNext : s.next = (.ok t, s₁)) :
    (s₁.hold t).FailsOnInput := by
  have hAgain := next_hold_of_next t hNext
  intro ts s₂ e s₃ hDelivers hError
  cases hDelivers with
  | nil =>
      rw [hAgain] at hError
      cases hError
  | cons hFirst hRest =>
      rw [hAgain] at hFirst
      cases hFirst
      exact h.next hNext hRest hError

/- A stream that has failed fails the same way again. -/
theorem failed
    (h : s.FailsOnInput)
    (hNext : s.next = (.error e, s₁)) :
    s₁.FailsOnInput := by
  have hAgain := next_of_error hNext
  intro ts s₂ e' s₃ hDelivers hError
  cases hDelivers with
  | nil =>
      rw [hAgain] at hError
      cases hError
      exact h.error hNext
  | cons hFirst _ =>
      rw [hAgain] at hFirst
      cases hFirst

theorem session
    {events : List Event}
    (h : s.FailsOnInput)
    (hSession : Session s events s₁) :
    s₁.FailsOnInput := by
  induction hSession with
  | nil => exact h
  | @read s _ _ _ _ _ hRead _ ih =>
      rw [← Session.state_of_read hRead] at ih
      cases hNext : s.next with
      | mk result s₂ =>
          rw [hNext] at ih
          cases result with
          | ok t => exact ih (h.next hNext)
          | error e => exact ih (h.failed hNext)
  | back hNext _ _ ih => exact ih (h.hold hNext)

end FailsOnInput

/- The steps of a machine decide how its stream fails. -/
theorem failsOnInput_start
    (hStep :
      ∀ {m m' : μ} {e : DecodeError},
        TokenMachine.step m = (.error e, m') → e.OfInput)
    (m : μ) :
    (start m).FailsOnInput := by
  intro ts s₁ e s₂ hDelivers hError
  rcases hDelivers.exists_start with ⟨m', rfl⟩
  rcases step_of_next_start_error hError with ⟨m'', hResult⟩
  exact hStep hResult

end Stream

theorem Scanner.stream_failsOnInput
    (bytes : List UInt8)
    (fault : Option String)
    (limit : Nat) :
    (stream bytes fault limit).FailsOnInput :=
  Stream.failsOnInput_start (fun h => (token_error h).1) _

theorem ValueWalk.stream_failsOnInput
    (j : Json)
    (limit : Nat) :
    (stream j limit).FailsOnInput :=
  Stream.failsOnInput_start (fun h => step_error h) _

end TreeWire
