import EmbeddedSql.Storage.JsonFile

/-!
# Stores of any kind

A store is a state of one of the backends, together with what the backend needs
to know.
-/

namespace EmbeddedSql.Storage

/-- A store. -/
inductive Store where
  /-- A document in memory. -/
  | memory (document : Document)
  /-- A document in memory that can be told to refuse. -/
  | switchable (state : Switchable)
  /-- A document in the file at a path. -/
  | file (path : Path) (system : FileSystem)

namespace Store

/-- The document in a store. -/
def read (reading : Json.NumberReading) : Store → Except StorageError Document
  | .memory document => Storage.memory.read document
  | .switchable state => Storage.switchable.read state
  | .file path system => JsonFile.read reading path system

/-- The store after an attempt to write a document, and whether it worked. -/
def write (document : Document) : Store → Store × Except StorageError Unit
  | .memory old =>
    let (new, result) := Storage.memory.write document old
    (.memory new, result)
  | .switchable state =>
    let (state, result) := Storage.switchable.write document state
    (.switchable state, result)
  | .file path system =>
    let (system, result) := JsonFile.write path document system
    (.file path system, result)

/-- The files of a store that has some. -/
def files : Store → Option FileSystem
  | .file _ system => some system
  | _ => none

/-- The backend of stores of any kind. -/
def backend (reading : Json.NumberReading) : Backend Store where
  read := read reading
  write := write

end Store

end EmbeddedSql.Storage
