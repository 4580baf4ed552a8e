import DebugClient.CommandLine
import DebugClient.Session.ScriptFile

/-!
The program. It loads the files that its arguments lead to, does its work on them, and then shows
and stores what has come of it. The debugger that the settings name is a script.
-/

namespace DebugClient.Main

/-- A path as the operating system takes it. -/
def render (path : List Text) : String := String.ofList ('/' :: ['/'].intercalate path)

def isRealDirectory (path : List Text) : IO Bool := do
  try
    let _ ← IO.FS.realPath (render path ++ "/.")
    return true
  catch _ => return false

/-- Load a directory and those above it, as far as they exist. -/
def loadDirectory (path : List Text) (store : FileStore) : IO FileStore := do
  let mut store := store
  for depth in List.range (path.length + 1) do
    let above := path.take depth
    if !store.isDirectory above && (← isRealDirectory above) then
      store := { store with directories := above :: store.directories }
  return store

/-- Load a file together with the directories that lead to it. -/
def loadFile (directory : List Text) (store : FileStore) (name : Text) : IO FileStore := do
  let mut store := store
  let mut place := if name.head? = some '/' then [] else directory
  for step in Text.pieces (· == '/') name do
    store ← loadDirectory place store
    place := (store.follow? place step).getD place
  store ← loadDirectory place store
  match store.locate? directory name with
  | none => return store
  | some path =>
    try
      let bytes ← IO.FS.readBinFile (render path)
      return { store with files := (path, bytes.toList) :: store.files }
    catch _ => return store

/-- Load the files that a run with these arguments may read or write. -/
def loadFiles (arguments : Arguments) (directory : List Text) : IO FileStore := do
  let given := arguments.config.toList ++ arguments.directory.toList
  let store ← given.foldlM (loadFile directory) (← loadDirectory directory {})
  match CommandLine.loadConfig arguments (Script.machine directory store) with
  | .error _ => return store
  | .ok config =>
    let named := config.debugger :: config.memlogPath.toList ++ config.snapshotPath.toList
    named.foldlM (loadFile directory) store

/-- Store the files that are new or have changed. -/
def storeFiles (before after : FileStore) : IO Unit := do
  for (path, bytes) in after.files do
    unless before.files.lookup path = some bytes do
      IO.FS.writeBinFile (render path) ⟨bytes.toArray⟩

/-- The names that lead to the current directory. -/
def currentDirectory : IO (List Text) := do
  let name := toString (← IO.currentDir)
  return (Text.pieces (· == '/') name.toList).filter fun piece => !piece.isEmpty

/-- What is left of a stream. -/
partial def readAll (stream : IO.FS.Stream) : IO (List UInt8) := do
  let bytes ← stream.read 4096
  if bytes.isEmpty then return []
  return bytes.toList ++ (← readAll stream)

/-- Load what a run with these arguments needs: files and, unless it is an automated one, the
    input. Arguments that are wrong need nothing. -/
def load (arguments : List Text) (directory : List Text) : IO (FileStore × List UInt8) := do
  match Arguments.read arguments with
  | .error _ => return ({}, [])
  | .ok understood =>
    let files ← loadFiles understood directory
    let input ← if understood.auto then pure [] else readAll (← IO.getStdin)
    return (files, input)

end DebugClient.Main

open DebugClient

def main (arguments : List String) : IO UInt32 := do
  let arguments := arguments.map String.toList
  let directory ← Main.currentDirectory
  let (files, input) ← Main.load arguments directory
  let outcome := CommandLine.run arguments input (Script.machine directory files)
  Main.storeFiles files outcome.files
  for t in outcome.terminal.err do
    IO.eprint (String.ofList t)
  for t in outcome.terminal.out do
    IO.print (String.ofList t)
  return outcome.exitCode.toUInt32
