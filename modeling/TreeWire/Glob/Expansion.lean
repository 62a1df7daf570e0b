import TreeWire.Files.Access
import TreeWire.Glob.Pattern

/-
  The files that a pattern stands for.

  A pattern has one part for each name of a path.  Matches
  come directory by directory, in the order of their names;
  what a part matches comes before what is found below it.

  Key definitions include:
    * `isGlob`
    * `expand`
-/

namespace TreeWire

namespace Glob

/- Whether a text has a character of patterns. -/
def isGlob
    (text : String) : Bool :=
  text.toList.any fun c =>
    c = '*' || c = '?' || c = '[' || c = '\x7b'

/- A name in a directory; the current one is not written. -/
def below
    (path name : String) : String :=
  if path = "." then name else Path.join path name

/- Names in the order of their characters. -/
def sortNames
    (names : List String) : List String :=
  names.mergeSort fun a b => decide (a ≤ b)

------------------------------------------------------------
-- Descent
------------------------------------------------------------

section

variable {m : Type → Type} [Monad m] [FileAccess m]

/- A path, if nothing asks for a directory or it is one. -/
def keep
    (onlyDirectories : Bool)
    (path : String) : m (List String) := do
  if onlyDirectories && !(← isDirectory path) then
    return []
  else
    return [path]

/- Go on at a path with the parts that are left. -/
def arrive
    (onlyDirectories : Bool)
    (descend : List GlobPattern → String → m (List String))
    (rest : List GlobPattern)
    (path : String) : m (List String) :=
  if rest.isEmpty then
    keep onlyDirectories path
  else
    descend rest path

/- The matches at and below an entry of a directory. -/
def visit
    (onlyDirectories : Bool)
    (descend : List GlobPattern → String → m (List String))
    (p : GlobPattern)
    (rest : List GlobPattern)
    (path name : String) : m (List String) := do
  if p.isRecursive then
    let rest := rest.dropWhile GlobPattern.isRecursive
    let directory ← isDirectory path
    let deeper ←
      if directory then descend (p :: rest) path else pure []
    match rest with
    | [] =>
        return if directory then path :: deeper else []
    | next :: after =>
        let found ←
          if next.covers name then
            arrive onlyDirectories descend after path
          else
            pure []
        return found ++ deeper
  else if p.covers name then
    arrive onlyDirectories descend rest path
  else
    return []

/- The names of a directory for itself and the one above. -/
def specialNames
    (p : GlobPattern) : List String :=
  if p.tokens.head? = some (.char '.') then
    ["..", "."].filter p.covers
  else
    []

/-
  The matches of parts below a path, so many steps down at
  most.
-/
def descend
    (onlyDirectories : Bool) :
    (depth : Nat) →
    List GlobPattern →
    String →
    m (List String)
  | 0, _, _ =>
      return []
  | _, [], _ =>
      return []
  | depth + 1, p :: rest, path => do
      let go := descend onlyDirectories depth
      let directory ← isDirectory path
      if p.isLiteral then
        let next := below path p.text
        let found ←
          if p.text = "." || p.text = ".." then
            pure directory
          else
            pure (← FileAccess.kind? next).isSome
        if found then
          arrive onlyDirectories go rest next
        else
          return []
      else if directory then
        let special ← (specialNames p).mapM fun name =>
          arrive onlyDirectories go rest (Path.join path name)
        let names ← FileAccess.names path
        let found ← (sortNames names).mapM fun name =>
          visit onlyDirectories go p rest (below path name) name
        return special.flatten ++ found.flatten
      else
        return []

end

------------------------------------------------------------
-- Expansion
------------------------------------------------------------

/- Directories do not nest deeper than paths are long. -/
def greatestDepth : Nat :=
  4096

/- The parts of a pattern. -/
def partsOf
    (text : String) : List String :=
  let cs := text.toList
  let cs := if Path.isAbsolute text then cs.drop 1 else cs
  let parts := splitAtMark '/' cs
  let parts :=
    if parts.getLast? = some [] then parts.dropLast else parts
  parts.map String.ofList

/- The paths that a pattern stands for. -/
def expand
    {m : Type → Type} [Monad m] [FileAccess m]
    (text : String) :
    m (Except PatternError (List String)) := do
  match GlobPattern.parse text with
  | .error e =>
      return .error e
  | .ok _ =>
      match (partsOf text).mapM GlobPattern.parse with
      | .error e =>
          return .error e
      | .ok parts =>
          let start := if Path.isAbsolute text then "/" else "."
          let onlyDirectories := Path.endsWithSlash text
          let depth := parts.length + greatestDepth
          return .ok (← descend onlyDirectories depth parts start)

end Glob

end TreeWire
