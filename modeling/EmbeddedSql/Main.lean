import EmbeddedSql.Shell.Session

/-!
# The command line

Carries the shell out on the standard streams and on real files. Before a
statement the file of the document is read, and after it the file is replaced
if the statement has stored anything.
-/

namespace EmbeddedSql.CommandLine

open EmbeddedSql.Storage

/-- The backend of the shell. -/
def backend : Backend Store :=
  Store.backend Json.Numeral.quick

/-- The path at which a store has its file, wherever the file really is. -/
def place : Path :=
  .ofText "document"

/-- The files as far as a store is concerned, given the content of its file. -/
def filesWith (node : Option Node) : FileSystem :=
  match node with
  | none => .empty ["shell"]
  | some node => (FileSystem.empty ["shell"]).put ["shell", "document"] node

/-- The file at a path, if there is one. A file that cannot be read is shown as a
directory, which cannot be read either. -/
def observe (path : String) : IO FileSystem := do
  try
    let content ← IO.FS.readBinFile path
    return filesWith (some (.file content.toList))
  catch
    | .noFileOrDirectory .. => return filesWith none
    | _ => return filesWith (some .directory)

/-- Replaces the file at a path in one step, and tells whether that worked. -/
def replaceFile (path : String) (content : List UInt8) : IO Bool := do
  try
    let directory := (Path.ofText path).parent.text
    unless directory.isEmpty do IO.FS.createDirAll directory
    let temporary := (JsonFile.temporary (.ofText path)).text
    IO.FS.writeBinFile temporary ⟨content.toArray⟩
    IO.FS.rename temporary path
    return true
  catch _ => return false

/-- The store at the present moment. -/
def refresh (data : Option String) (store : Store) : IO Store :=
  match data with
  | none => return store
  | some path => return .file place (← observe path)

/-- Makes the change of a store real, and tells whether that worked. -/
def commit (data : Option String) (old new : Store) : IO Bool := do
  match data, old.files, new.files with
  | some path, some before, some after =>
    match before.contentOf place, after.contentOf place with
    | .ok content, .ok changed =>
      if content = changed then return true else replaceFile path changed
    | _, .ok changed => replaceFile path changed
    | _, _ => return true
  | _, _, _ => return true

/-- Shows a text at once. -/
def put (text : String) : IO Unit := do
  let output ← IO.getStdout
  output.putStr text
  output.flush

/-- Runs statements up to the first one that fails. -/
def executeAll (data : Option String) :
    List (List Char) → Handle → Store → IO (Handle × Store)
  | [], handle, store => return (handle, store)
  | statement :: rest, handle, store => do
    let store ← refresh data store
    match handle.run backend statement [] store with
    | (after, changed, result) =>
      if ← commit data store changed then
        match result with
        | .ok rows =>
          put (Shell.unlines (Shell.rowLines rows))
          executeAll data rest after changed
        | .error e =>
          put (Shell.report e (some statement))
          return (after, changed)
      else
        put (Shell.report (.storage .fileSystem) (some statement))
        return (handle, store)

/-- Reads lines and does what they ask for until the session is over. -/
partial def converse (data : Option String) (pending : List Char) (handle : Handle)
    (store : Store) : IO Unit := do
  put (Shell.prompt pending)
  let line ← (← IO.getStdin).getLine
  match Shell.inputLines line.toList with
  | [] => put Shell.farewell
  | line :: _ =>
    match Shell.Command.read pending line with
    | (_, .leave) => put Shell.farewell
    | (next, .execute statements) =>
      let (handle, store) ← executeAll data statements handle store
      converse data next handle store
    | (next, command) =>
      let store ← refresh data store
      let (handle, store, shown) := Shell.perform backend command handle store
      put shown
      converse data next handle store

/-- Runs the shell with settings. -/
def start (options : Shell.Options) : IO UInt32 := do
  let store ← refresh options.data (.memory .empty)
  match Handle.open? backend options.config store with
  | .error e =>
    IO.eprint (Shell.report e none)
    return 1
  | .ok handle =>
    put (Shell.greeting options.data)
    converse options.data [] handle store
    return 0

end EmbeddedSql.CommandLine

/-- Reads the arguments and runs the shell. -/
def main (arguments : List String) : IO UInt32 := do
  match EmbeddedSql.Shell.Invocation.read .default arguments with
  | .error e =>
    IO.eprintln ("error: " ++ e.message)
    return 2
  | .ok .version =>
    EmbeddedSql.CommandLine.put EmbeddedSql.Shell.version
    return 0
  | .ok .help =>
    EmbeddedSql.CommandLine.put EmbeddedSql.Shell.usage
    return 0
  | .ok (.start options) => EmbeddedSql.CommandLine.start options
