import TreeWire.Json.Basic
import TreeWire.Source.Basic

/-
  The value walk: tokens of a document that was parsed before.

  The walk keeps a stack of what is left of the containers it
  is in, and counts how many there are.

  Key definitions include:
    * `WalkStep`
    * `ValueWalk`
    * `ValueWalk.step`
    * `ValueWalk.stream`
-/

namespace TreeWire

------------------------------------------------------------
-- State
------------------------------------------------------------

/-
  A value still to be walked, or what is left of a container.
-/
inductive WalkStep where
  | value (j : Json)
  | members (rest : List (String × Json))
  | elements (rest : List Json)
  deriving Inhabited, Repr

/-
  What is left to walk, innermost first, how many containers
  are open and how many may be.
-/
structure ValueWalk where
  stack : List WalkStep
  depth : Nat
  maxDepth : Nat
  deriving Inhabited, Repr

namespace ValueWalk

/- A walk before the first token. -/
def start
    (j : Json)
    (maxDepth : Nat) : ValueWalk :=
  ⟨[.value j], 0, maxDepth⟩

------------------------------------------------------------
-- Steps
------------------------------------------------------------

/- The error of a container nested too deep. -/
def tooDeep
    (maxDepth : Nat) : DecodeError :=
  .here (.malformed (depthMessage maxDepth) none)

/- Enter a value; `below` is the stack without it. -/
def enter
    (w : ValueWalk)
    (below : List WalkStep)
    (j : Json) : Except DecodeError Token × ValueWalk :=
  match j with
  | .literal lit =>
      (.ok (.literal lit), { w with stack := below })
  | .array items =>
      if w.maxDepth ≤ w.depth then
        (.error (tooDeep w.maxDepth), { w with stack := below })
      else
        (.ok .arrayOpen,
          { w with
            stack := .elements items :: below
            depth := w.depth + 1 })
  | .object members =>
      if w.maxDepth ≤ w.depth then
        (.error (tooDeep w.maxDepth), { w with stack := below })
      else
        (.ok .objectOpen,
          { w with
            stack := .members members :: below
            depth := w.depth + 1 })

/- Leave a container; `below` is the stack without it. -/
def leave
    (w : ValueWalk)
    (below : List WalkStep) : ValueWalk :=
  { w with stack := below, depth := w.depth - 1 }

/- One step of a walk. -/
def step
    (w : ValueWalk) : Except DecodeError Token × ValueWalk :=
  match w.stack with
  | [] =>
      (.ok .eof, w)
  | .value j :: below =>
      enter w below j
  | .members [] :: below =>
      (.ok .objectClose, leave w below)
  | .members ((name, j) :: rest) :: below =>
      (.ok (.key name),
        { w with stack := .value j :: .members rest :: below })
  | .elements [] :: below =>
      (.ok .arrayClose, leave w below)
  | .elements (j :: rest) :: below =>
      enter w (.elements rest :: below) j

------------------------------------------------------------
-- The Machine
------------------------------------------------------------

/- The tokens that are left of one stack entry. -/
def stepTokens : WalkStep → List Token
  | .value j => j.tokens
  | .members rest => Json.memberTokens rest ++ [.objectClose]
  | .elements rest => Json.itemTokens rest ++ [.arrayClose]

/- The number of tokens that are left. -/
def bound
    (w : ValueWalk) : Nat :=
  (w.stack.flatMap stepTokens).length

instance : TokenMachine ValueWalk where
  step := step
  bound := bound

/- The token source of a parsed document. -/
def stream
    (j : Json)
    (maxDepth : Nat) : Stream ValueWalk :=
  Stream.start (start j maxDepth)

end ValueWalk

end TreeWire
