import TreeWire.Files.Access

/-
  File trees: the files below a directory, as a value.

  A program with access to files can run on a file tree, which
  it changes as it would change the files.

  Key definitions include:
    * `FileTree`
    * `FileTree.locate`
    * `FileTree.put`
    * `FileTree.files`
-/

namespace TreeWire

------------------------------------------------------------
-- Trees
------------------------------------------------------------

/- A file, or a directory with its entries. -/
inductive FileTree where
  | file (bytes : List UInt8)
  | directory (entries : List (String × FileTree))
  deriving Inhabited

namespace FileTree

/- The directory without entries. -/
def empty : FileTree :=
  .directory []

/- The kind of an entry. -/
def kind : FileTree → EntryKind
  | .file _ => .file
  | .directory _ => .directory

/- The entry at the end of names. -/
def at?
    (tree : FileTree) : List String → Option FileTree
  | [] =>
      some tree
  | name :: names =>
      match tree with
      | .file _ =>
          none
      | .directory entries =>
          match entries.lookup name with
          | some entry => at? entry names
          | none => none

/- Put an entry in a list, in place of one with its name. -/
def putEntry
    (name : String)
    (entry : FileTree) :
    List (String × FileTree) → List (String × FileTree)
  | [] =>
      [(name, entry)]
  | (other, old) :: rest =>
      if other = name then (name, entry) :: rest
      else (other, old) :: putEntry name entry rest

/- Put an entry at the end of names, with its directories. -/
def put
    (entry : FileTree) : List String → FileTree → FileTree
  | [], _ =>
      entry
  | name :: names, .directory entries =>
      let below := (entries.lookup name).getD empty
      .directory (putEntry name (put entry names below) entries)
  | _ :: _, .file bytes =>
      .file bytes

------------------------------------------------------------
-- Files
------------------------------------------------------------

mutual

/- The files of a tree with their paths. -/
def files
    (path : String) : FileTree → List (String × List UInt8)
  | .file bytes => [(path, bytes)]
  | .directory entries => entryFiles path entries

/- The files of entries with their paths. -/
def entryFiles
    (path : String) :
    List (String × FileTree) → List (String × List UInt8)
  | [] => []
  | (name, entry) :: rest =>
      files (Path.join path name) entry ++ entryFiles path rest

end

/- The tree of files with their paths. -/
def ofFiles
    (contents : List (String × List UInt8)) : FileTree :=
  contents.foldl
    (fun tree (path, bytes) =>
      put (.file bytes) (Path.components path) tree)
    empty

------------------------------------------------------------
-- Paths
------------------------------------------------------------

/-
  Where a path leads: to an entry, or to a name that is free
  in a directory.
-/
inductive Place where
  | taken (names : List String) (entry : FileTree)
  | free (names : List String)

/- Follow names from a place, innermost name first. -/
def follow
    (root : FileTree)
    (place : List String) :
    List String → Except FileError Place
  | [] =>
      match root.at? place.reverse with
      | some entry => .ok (.taken place.reverse entry)
      | none => .error .notFound
  | name :: names =>
      match root.at? place.reverse with
      | some (.directory entries) =>
          if name = "." then
            follow root place names
          else if name = ".." then
            match place with
            | [] => .error .notFound
            | _ :: above => follow root above names
          else if (entries.lookup name).isSome then
            follow root (name :: place) names
          else if names.isEmpty then
            .ok (.free (name :: place).reverse)
          else
            .error .notFound
      | some (.file _) =>
          .error .notDirectory
      | none =>
          .error .notFound

/- Where a path leads.  Nothing is known above the tree. -/
def locate
    (root : FileTree)
    (path : String) : Except FileError Place :=
  if path.isEmpty || Path.isAbsolute path then
    .error .notFound
  else
    follow root [] (Path.components path)

------------------------------------------------------------
-- Operations
------------------------------------------------------------

/- The kind of the entry that a path names. -/
def kindAt?
    (root : FileTree)
    (path : String) : Option EntryKind :=
  match root.locate path with
  | .ok (.taken _ entry) => some entry.kind
  | _ => none

/- The names in the directory that a path names. -/
def namesAt
    (root : FileTree)
    (path : String) : List String :=
  match root.locate path with
  | .ok (.taken _ (.directory entries)) => entries.map (·.1)
  | _ => []

/- The bytes of the file that a path names. -/
def readAt
    (root : FileTree)
    (path : String) : Except FileError (List UInt8) :=
  match root.locate path with
  | .ok (.taken _ (.file bytes)) => .ok bytes
  | .ok (.taken _ (.directory _)) => .error .isDirectory
  | .ok (.free _) => .error .notFound
  | .error e => .error e

/-
  The tree with bytes in the file that a path names.  A path
  with a slash at its end names no new file.
-/
def writeAt
    (root : FileTree)
    (path : String)
    (bytes : List UInt8) : Except FileError FileTree :=
  match root.locate path with
  | .ok (.taken names (.file _)) =>
      .ok (put (.file bytes) names root)
  | .ok (.taken _ (.directory _)) =>
      .error .isDirectory
  | .ok (.free names) =>
      .ok (put (.file bytes) names root)
  | .error .notFound =>
      if Path.endsWithSlash path then
        match follow root [] (Path.components path).dropLast with
        | .ok (.free _) => .error .isDirectory
        | _ => .error .notFound
      else
        .error .notFound
  | .error e =>
      .error e

/- The tree with a new directory. -/
def makeAt
    (root : FileTree)
    (path : String) : Except FileError FileTree :=
  match root.locate path with
  | .ok (.taken _ _) => .error .alreadyExists
  | .ok (.free names) => .ok (put empty names root)
  | .error e => .error e

/- Go on with a changed tree. -/
def update
    (change : FileTree → Except FileError FileTree) :
    StateM FileTree (Except FileError Unit) :=
  fun root =>
    match change root with
    | .ok changed => (.ok (), changed)
    | .error e => (.error e, root)

instance : FileAccess (StateM FileTree) where
  kind? := fun path root => (root.kindAt? path, root)
  names := fun path root => (root.namesAt path, root)
  read := fun path root => (root.readAt path, root)
  write := fun path bytes => update fun root => root.writeAt path bytes
  makeDirectory := fun path => update fun root => root.makeAt path

end FileTree

end TreeWire
