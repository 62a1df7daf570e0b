import TreeWire.Token

/-
  Token sources: machines that deliver the tokens of a
  document one by one.

  A source can take back the token that it has just delivered.
  A source made from a machine keeps that token in a slot, and
  repeats the first failure of its machine forever.

  Key definitions include:
    * `TokenSource`
    * `Reading`
    * `nextKey`
    * `nextValue`
    * `TokenMachine`
    * `Stream`
-/

namespace TreeWire

------------------------------------------------------------
-- Sources
------------------------------------------------------------

/-
  A source of tokens.  `bound` is a number of tokens that the
  source does not exceed before it fails or ends.
-/
class TokenSource (σ : Type) where
  next : σ → Except DecodeError Token × σ
  hold : σ → Token → σ
  bound : σ → Nat

/-
  A computation that reads tokens.  What it has read stays
  read when it fails.
-/
abbrev Reading (σ : Type) :=
  ExceptT DecodeError (StateM σ)

namespace Reading

variable {σ : Type}

/- Let the error of a computation pass through a function. -/
def mapError
    {α : Type}
    (f : DecodeError → DecodeError)
    (action : Reading σ α) : Reading σ α :=
  fun s =>
    match action s with
    | (.ok a, s') => (.ok a, s')
    | (.error e, s') => (.error (f e), s')

/- Fail for a cause at the value being read. -/
def fail
    {α : Type}
    (cause : Cause) : Reading σ α :=
  throw (.here cause)

end Reading

section

variable {σ : Type} [TokenSource σ]

/- Read the next token. -/
def nextToken : Reading σ Token :=
  fun s => TokenSource.next s

/- Give back the token that was read last. -/
def holdToken
    (token : Token) : Reading σ Unit :=
  fun s => (.ok (), TokenSource.hold s token)

/-
  Read the next key of an object.  There is none when the
  object closes or the input ends.
-/
def nextKey : Reading σ (Option String) := do
  match ← nextToken with
  | .key name => pure (some name)
  | .objectClose => pure none
  | .eof => pure none
  | other => throw (Token.wrongShape "object key" other)

/- Read the token that starts a value. -/
def nextValue : Reading σ Token := do
  let token ← nextToken
  if token.startsValue then
    pure token
  else
    throw (Token.wrongShape "value" token)

end

------------------------------------------------------------
-- Sources Made from Machines
------------------------------------------------------------

/-
  A machine that delivers tokens and cannot take one back.
-/
class TokenMachine (μ : Type) where
  step : μ → Except DecodeError Token × μ
  bound : μ → Nat

/-
  A machine with a slot for one token that was given back, and
  with the failure that stopped it.
-/
structure Stream (μ : Type) where
  machine : μ
  held : Option Token
  failed : Option DecodeError

namespace Stream

variable {μ : Type}

/- A machine before its first token. -/
def start
    (machine : μ) : Stream μ :=
  ⟨machine, none, none⟩

/-
  The next token: the held one, else the failure, else what
  the machine delivers.
-/
def next
    [TokenMachine μ]
    (s : Stream μ) : Except DecodeError Token × Stream μ :=
  match s.held with
  | some token =>
      (.ok token, { s with held := none })
  | none =>
      match s.failed with
      | some e =>
          (.error e, s)
      | none =>
          match TokenMachine.step s.machine with
          | (.ok token, machine) =>
              (.ok token, { s with machine := machine })
          | (.error e, machine) =>
              (.error e, ⟨machine, none, some e⟩)

/- Take a token back. -/
def hold
    (s : Stream μ)
    (token : Token) : Stream μ :=
  { s with held := some token }

/- A number of tokens that a stream does not exceed. -/
def bound
    [TokenMachine μ]
    (s : Stream μ) : Nat :=
  TokenMachine.bound s.machine + (if s.held.isSome then 1 else 0)

end Stream

instance
    {μ : Type}
    [TokenMachine μ] :
    TokenSource (Stream μ) where
  next := Stream.next
  hold := Stream.hold
  bound := Stream.bound

------------------------------------------------------------
-- Depth Limit
------------------------------------------------------------

/- Containers may nest this deep unless told otherwise. -/
def defaultMaxDepth : Nat :=
  256

/- The message for containers nested deeper than a limit. -/
def depthMessage
    (limit : Nat) : String :=
  "nesting exceeds the maximum depth of " ++ toString limit

end TreeWire
