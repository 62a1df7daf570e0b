import TreeWire.Files.Path

/-
  Access to files.

  What a program does with files is written for any monad with
  such access, so that it runs on a real file system and can
  be reasoned about on a file tree.

  Key definitions include:
    * `FileError`
    * `FileAccess`
    * `createDirectories`
    * `readText`
-/

namespace TreeWire

------------------------------------------------------------
-- Errors
------------------------------------------------------------

/- Why an operation on a file failed. -/
inductive FileError where
  | notFound
  | alreadyExists
  | notDirectory
  | isDirectory
  | notText
  | other (message : String)
  deriving DecidableEq, Repr, Inhabited

namespace FileError

/- An error in words. -/
def text : FileError → String
  | .notFound => "No such file or directory (os error 2)"
  | .alreadyExists => "File exists (os error 17)"
  | .notDirectory => "Not a directory (os error 20)"
  | .isDirectory => "Is a directory (os error 21)"
  | .notText => "stream did not contain valid UTF-8"
  | .other message => message

end FileError

------------------------------------------------------------
-- Access
------------------------------------------------------------

/- The kinds of entries. -/
inductive EntryKind where
  | file
  | directory
  deriving DecidableEq, Repr, Inhabited

/-
  The operations on files.  A directory can be opened, and
  reading it fails with `isDirectory`.
-/
class FileAccess (m : Type → Type) where
  kind? : String → m (Option EntryKind)
  names : String → m (List String)
  read : String → m (Except FileError (List UInt8))
  write : String → List UInt8 → m (Except FileError Unit)
  makeDirectory : String → m (Except FileError Unit)

/- The text that bytes stand for. -/
def asText
    (bytes : List UInt8) : Except FileError String :=
  match String.fromUTF8? ⟨bytes.toArray⟩ with
  | some text => .ok text
  | none => .error .notText

section

variable {m : Type → Type} [Monad m] [FileAccess m]

/- Whether a path names a directory. -/
def isDirectory
    (path : String) : m Bool := do
  return (← FileAccess.kind? path) = some .directory

/- Make a directory, unless it is there. -/
def ensureDirectory
    (path : String) : m (Except FileError Unit) := do
  match ← FileAccess.makeDirectory path with
  | .ok () =>
      return .ok ()
  | .error e =>
      if ← isDirectory path then
        return .ok ()
      else
        return .error e

/- Make a directory and those above it, so many at most. -/
def createWithin : Nat → String → m (Except FileError Unit)
  | 0, path =>
      ensureDirectory path
  | count + 1, path => do
      if path.isEmpty then
        return .ok ()
      match ← ensureDirectory path with
      | .error .notFound =>
          match Path.parent? path with
          | none =>
              return .error (.other "failed to create whole tree")
          | some parent =>
              match ← createWithin count parent with
              | .error e => return .error e
              | .ok () => ensureDirectory path
      | result =>
          return result

/- Make a directory and those above it. -/
def createDirectories
    (path : String) : m (Except FileError Unit) :=
  createWithin (path.length + 1) path

/- Read a file as text. -/
def readText
    (path : String) : m (Except FileError String) := do
  return (← FileAccess.read path).bind asText

end

end TreeWire
