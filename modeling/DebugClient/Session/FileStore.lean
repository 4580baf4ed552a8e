import DebugClient.Text.Basic

/-!
Files, as far as a session has to do with them.

A file is known by the names that lead to it from the root. A name that is given in one text, such
as `logs/../stops`, is followed step by step, and each step leaves from a directory that exists.
-/

namespace DebugClient

/-- Files and directories, each under the names that lead to it from the root. -/
structure FileStore where
  directories : List (List Text) := [[]]
  files : List (List Text × List UInt8) := []
  deriving DecidableEq, Repr

namespace FileStore
open Text

def isDirectory (store : FileStore) (path : List Text) : Bool := store.directories.contains path

/-- One step on the way to a file. -/
def follow? (store : FileStore) (path : List Text) (name : Text) : Option (List Text) :=
  if !store.isDirectory path then none
  else if name.isEmpty ∨ name = ['.'] then some path
  else if name = ['.', '.'] then some path.dropLast
  else some (path ++ [name])

/-- Where a name leads from a directory. There need not be anything. -/
def locate? (store : FileStore) (directory : List Text) (name : Text) : Option (List Text) :=
  if name.isEmpty then none
  else (pieces (· == '/') name).foldlM store.follow?
    (if name.head? = some '/' then [] else directory)

/-- The directory of that name. -/
def directory? (store : FileStore) (directory : List Text) (name : Text) : Option (List Text) :=
  (store.locate? directory name).filter store.isDirectory

def read? (store : FileStore) (directory : List Text) (name : Text) : Option (List UInt8) :=
  (store.locate? directory name).bind fun path => store.files.lookup path

/-- Write a file. Its directory must be there already, and it must not be a directory itself. -/
def write? (directory : List Text) (name : Text) (bytes : List UInt8) (store : FileStore) :
    Option FileStore := do
  let path ← store.locate? directory name
  if store.isDirectory path then none
  some { store with files := (path, bytes) :: store.files.filter (·.1 ≠ path) }

/-- Append to a file, if it can be written. -/
def append (directory : List Text) (name : Text) (bytes : List UInt8) (store : FileStore) :
    FileStore :=
  (store.write? directory name ((store.read? directory name).getD [] ++ bytes)).getD store

end FileStore
end DebugClient
