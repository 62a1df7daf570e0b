import TreeWire.Source.Basic

/-
  A fixed list of tokens as a source, well-formed or not.

  Key definitions include:
    * `TokenList`
    * `TokenList.stream`
-/

namespace TreeWire

------------------------------------------------------------
-- Token Lists
------------------------------------------------------------

/- The tokens still to be delivered. -/
structure TokenList where
  pending : List Token
  deriving DecidableEq, Repr, Inhabited

namespace TokenList

/- Deliver the next token, after the last one `eof` forever. -/
def step
    (l : TokenList) : Except DecodeError Token × TokenList :=
  match l.pending with
  | [] => (.ok .eof, l)
  | token :: rest => (.ok token, ⟨rest⟩)

instance : TokenMachine TokenList where
  step := step
  bound := fun l => l.pending.length

/- The token source of a list. -/
def stream
    (tokens : List Token) : Stream TokenList :=
  Stream.start ⟨tokens⟩

end TokenList

end TreeWire
