import EmbeddedSql.Storage.Path

/-!
# File systems

A file system holds files and directories by their locations. A path is looked
up step by step, and every step needs a directory to start from. The operations
are those that replacing a file in one step needs; each either works as a whole
or fails and changes nothing.
-/

namespace EmbeddedSql.Storage

/-- A location: the names of the directories down from the root, and a last
name. -/
abbrev Location := List String

/-- What is found at a location. -/
inductive Node where
  /-- A file with its content. -/
  | file (content : List UInt8)
  /-- A directory. -/
  | directory
  deriving DecidableEq, Repr

/-- Why a file operation fails. -/
inductive Fault where
  /-- There is nothing at the path. -/
  | notFound
  /-- There is a directory where a file is needed. -/
  | isDirectory
  /-- There is no directory where one is needed. -/
  | notDirectory
  /-- The path or a name in it cannot be used. -/
  | badName
  deriving DecidableEq, Repr

/-- A file system: what is found at each location below the root. -/
structure FileSystem where
  /-- The nodes with their locations, no location twice. -/
  nodes : List (Location × Node)
  /-- The working directory. -/
  working : Location
  deriving DecidableEq, Repr

namespace FileSystem

/-- The file system with an empty working directory at a location and nothing
else but the directories on the way to it. -/
def empty (working : Location) : FileSystem :=
  ⟨(beginnings working).map (·, .directory), working⟩

/-- The node at a location; the root is a directory. -/
def node? (system : FileSystem) (location : Location) : Option Node :=
  if location = [] then some .directory
  else (system.nodes.find? fun entry => entry.1 = location).map Prod.snd

/-- The file system with a node at a location, in place of what was there. -/
def put (system : FileSystem) (location : Location) (node : Node) : FileSystem :=
  { system with
    nodes := (location, node) :: system.nodes.filter fun entry => entry.1 ≠ location }

/-- The file system without the node at a location. -/
def remove (system : FileSystem) (location : Location) : FileSystem :=
  { system with nodes := system.nodes.filter fun entry => entry.1 ≠ location }

/-- The location to which steps lead from another one. There need not be
anything at it, but in front of every step there is a directory. A name has at
most 255 bytes. -/
def follow (system : FileSystem) : Location → List Step → Except Fault Location
  | location, [] => .ok location
  | location, step :: rest =>
    match system.node? location with
    | none => .error .notFound
    | some (.file _) => .error .notDirectory
    | some .directory =>
      match step with
      | .stay => system.follow location rest
      | .up => system.follow location.dropLast rest
      | .into name =>
        if 255 < name.utf8ByteSize then .error .badName
        else system.follow (location ++ [name]) rest

/-- The location to which a path leads. -/
def locate (system : FileSystem) (path : Path) : Except Fault Location :=
  if path.isUsable then
    system.follow (if path.absolute then [] else system.working) path.steps
  else .error .badName

/-- The content of the file at a path. -/
def contentOf (system : FileSystem) (path : Path) : Except Fault (List UInt8) :=
  match system.locate path with
  | .error fault => .error fault
  | .ok location =>
    match system.node? location with
    | some (.file content) => .ok content
    | some .directory => .error .isDirectory
    | none => .error .notFound

/-- Makes a directory in a directory, unless it is there. -/
def createDirectory (system : FileSystem) (path : Path) : Except Fault FileSystem :=
  match system.locate path with
  | .error fault => .error fault
  | .ok location =>
    match system.node? location with
    | some .directory => .ok system
    | some (.file _) => .error .notDirectory
    | none => .ok (system.put location .directory)

/-- Makes a file with the given content, in place of a file that is there. -/
def placeFile (system : FileSystem) (path : Path) (content : List UInt8) :
    Except Fault FileSystem :=
  match system.locate path with
  | .error fault => .error fault
  | .ok location =>
    match system.node? location with
    | some .directory => .error .isDirectory
    | _ => .ok (system.put location (.file content))

/-- Moves a file to another path, in place of a file that is there. -/
def rename (system : FileSystem) (source target : Path) : Except Fault FileSystem :=
  match system.locate source, system.locate target with
  | .error fault, _ => .error fault
  | _, .error fault => .error fault
  | .ok start, .ok goal =>
    match system.node? start, system.node? goal with
    | none, _ => .error .notFound
    | some .directory, _ => .error .isDirectory
    | _, some .directory => .error .isDirectory
    | some (.file content), _ => .ok ((system.remove start).put goal (.file content))

/-- The names in a directory, in increasing order; none if there is no such
directory. -/
def list? (system : FileSystem) (path : Path) : Option (List String) :=
  match system.locate path with
  | .error _ => none
  | .ok location =>
    if system.node? location = some .directory then
      some ((system.nodes.filterMap fun entry =>
        if entry.1.dropLast = location then entry.1.getLast? else none).mergeSort (· ≤ ·))
    else none

end FileSystem

/-- A step of changing a file system. -/
inductive FileStep where
  /-- A directory is made, unless it is there. -/
  | createDirectory (path : Path)
  /-- A file is written. -/
  | placeFile (path : Path) (content : List UInt8)
  /-- A file is moved in place of another. -/
  | rename (source target : Path)
  deriving DecidableEq, Repr

namespace FileStep

/-- The file system after a step. -/
def apply (system : FileSystem) : FileStep → Except Fault FileSystem
  | .createDirectory path => system.createDirectory path
  | .placeFile path content => system.placeFile path content
  | .rename source target => system.rename source target

/-- The file system after the steps up to the first one that fails, and the
failure. -/
def applyAll (system : FileSystem) : List FileStep → FileSystem × Option Fault
  | [] => (system, none)
  | step :: rest =>
    match step.apply system with
    | .ok system => applyAll system rest
    | .error fault => (system, some fault)

end FileStep

end EmbeddedSql.Storage
