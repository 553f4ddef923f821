import EmbeddedSql.Json.Decoding
import EmbeddedSql.Storage.Backend
import EmbeddedSql.Storage.FileSystem

/-!
# Documents in files

A document is kept as pretty JSON in a file. A file that is missing or holds
nothing but blanks stands for the document without tables. Writing goes to a
file next to it, which then takes its place in one step.
-/

namespace EmbeddedSql.Storage.JsonFile

/-- Whether a byte is an ASCII blank. -/
def isBlank (b : UInt8) : Bool :=
  b == 0x20 || b == 0x09 || b == 0x0A || b == 0x0C || b == 0x0D

/-- The document that the content of a file stands for. -/
def decode (reading : Json.NumberReading) (content : List UInt8) :
    Except StorageError Document :=
  if content.all isBlank then .ok .empty
  else
    match Document.read? reading (Json.sourceOfBytes content) with
    | some document => .ok document
    | none => .error .undecodable

/-- The content of a file for a document. -/
def encode (document : Document) : List UInt8 :=
  Text.Utf8.encode document.toJson.pretty

/-- The document in the file at a path. -/
def read (reading : Json.NumberReading) (path : Path) (system : FileSystem) :
    Except StorageError Document :=
  match system.contentOf path with
  | .ok content => decode reading content
  | .error .notFound => .ok .empty
  | .error _ => .error .fileSystem

/-- The file that a document is written to first. -/
def temporary (path : Path) : Path :=
  path.withName (path.name?.getD "" ++ ".tmp")

/-- The steps of writing a document: the directories on the way, the file next
to the target, and its move to the target. -/
def plan (path : Path) (document : Document) : List FileStep :=
  path.parent.way.map .createDirectory ++
    [.placeFile (temporary path) (encode document), .rename (temporary path) path]

/-- The file system after writing a document to the file at a path. -/
def write (path : Path) (document : Document) (system : FileSystem) :
    FileSystem × Except StorageError Unit :=
  match FileStep.applyAll system (plan path document) with
  | (system, none) => (system, .ok ())
  | (system, some _) => (system, .error .fileSystem)

/-- The backend that keeps its document in the file at a path. -/
def backend (reading : Json.NumberReading) (path : Path) : Backend FileSystem where
  read := read reading path
  write := write path

end EmbeddedSql.Storage.JsonFile
