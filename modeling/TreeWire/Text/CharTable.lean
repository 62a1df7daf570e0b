/-
  Tables of characters, kept as runs of code points.

  A run holds the code points between two ends that lie a
  fixed step apart, so that alphabets in which capital and
  small letters alternate need one run and not one entry per
  letter.

  Key definitions include:
    * `CharRun`
    * `CharRun.holds`
    * `CharTable`
    * `CharTable.holds`
-/

namespace TreeWire

------------------------------------------------------------
-- Runs
------------------------------------------------------------

/-
  The code points `first`, `first + step`, and so on, up to
  `last`.
-/
structure CharRun where
  first : Nat
  last : Nat
  step : Nat := 1
  deriving DecidableEq, Repr, Inhabited

namespace CharRun

/- Whether a character lies in a run. -/
def holds
    (run : CharRun)
    (c : Char) : Bool :=
  run.first ≤ c.toNat && c.toNat ≤ run.last
    && (c.toNat - run.first) % run.step == 0

end CharRun

------------------------------------------------------------
-- Tables
------------------------------------------------------------

/- A set of characters given by runs. -/
abbrev CharTable :=
  Array CharRun

namespace CharTable

/- Whether some run of a table holds a character. -/
def holds
    (table : CharTable)
    (c : Char) : Bool :=
  table.any fun run => run.holds c

end CharTable

end TreeWire
