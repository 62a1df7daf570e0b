import TreeWire.Text.Split

/-
  File paths as texts.

  A path is names with slashes between them.  Empty names and
  single dots do not count, except for a dot in front.

  Key definitions include:
    * `Path.join`
    * `Path.parent?`
    * `Path.components`
-/

namespace TreeWire

namespace Path

------------------------------------------------------------
-- Joining
------------------------------------------------------------

/- Whether a path starts at the root. -/
def isAbsolute
    (path : String) : Bool :=
  path.toList.head? = some '/'

/- Whether a path ends with a slash. -/
def endsWithSlash
    (path : String) : Bool :=
  path.toList.getLast? = some '/'

/- A path below another one. -/
def join
    (base path : String) : String :=
  if isAbsolute path then path
  else if base.isEmpty || endsWithSlash base then base ++ path
  else base ++ "/" ++ path

------------------------------------------------------------
-- Parents
------------------------------------------------------------

/-
  The part of a path in front of its names: the root, or a
  dot, or nothing.
-/
def front : List Char → List Char × List Char
  | '/' :: rest => (['/'], rest)
  | ['.'] => (['.'], [])
  | '.' :: '/' :: rest => (['.'], '/' :: rest)
  | cs => ([], cs)

/- Whether a name does not count. -/
def isIdle
    (name : List Char) : Bool :=
  name = [] || name = ['.']

/- The path without its last name; the root has no parent. -/
def parent?
    (path : String) : Option String :=
  let (start, body) := front path.toList
  let names := (splitAtMark '/' body).reverse
  match names.dropWhile isIdle with
  | _ :: rest =>
      some (String.ofList
        (start ++ joinWithMark '/' (rest.dropWhile isIdle).reverse))
  | [] =>
      if start = ['.'] then some "" else none

------------------------------------------------------------
-- Components
------------------------------------------------------------

/-
  The names of a path.  A slash at the end asks for a
  directory, as a dot there does.
-/
def components
    (path : String) : List String :=
  let names := (splitAtMark '/' path.toList).filter (· ≠ [])
  names.map String.ofList
    ++ (if endsWithSlash path then ["."] else [])

end Path

end TreeWire
