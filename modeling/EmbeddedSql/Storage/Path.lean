/-!
# Paths

A path is a way through directories, given as a text with slashes: from the root
if it begins with a slash, and otherwise from the working directory. Its parts
are a name, one dot for the directory itself, or two dots for the directory
above. Parts that are empty or a single dot change nothing, except at the end,
where they say that the path leads to a directory.
-/

namespace EmbeddedSql.Storage

/-- The non-empty beginnings of a list, the shortest first. -/
def beginnings {α : Type} : List α → List (List α)
  | [] => []
  | head :: rest => [head] :: (beginnings rest).map (head :: ·)

/-- A step along a path. -/
inductive Step where
  /-- To what has a name in the directory. -/
  | into (name : String)
  /-- To the directory itself. -/
  | stay
  /-- To the directory above. -/
  | up
  deriving DecidableEq, Repr

namespace Step

/-- The step that a part of a path's text denotes. -/
def ofPart (part : String) : Step :=
  if part = "" ∨ part = "." then .stay
  else if part = ".." then .up
  else .into part

/-- The part of a path's text that denotes a step. -/
def text : Step → String
  | .into name => name
  | .stay => "."
  | .up => ".."

end Step

/-- A path. -/
structure Path where
  /-- Whether it begins at the root. -/
  absolute : Bool
  /-- Its steps. -/
  steps : List Step
  deriving DecidableEq, Repr

namespace Path

/-- The steps that lead somewhere. -/
def moves (steps : List Step) : List Step :=
  steps.filter (· ≠ .stay)

/-- The path that a text denotes. -/
def ofText (text : String) : Path :=
  let parts := text.splitOn "/"
  let steps := parts.map Step.ofPart
  ⟨1 < parts.length ∧ parts.head? = some "",
    moves steps.dropLast ++ steps.getLast?.toList⟩

/-- The text of a path. -/
def text (path : Path) : String :=
  (if path.absolute then "/" else "") ++ "/".intercalate (path.steps.map Step.text)

/-- A path from the directory at another path. -/
def under (path directory : Path) : Path :=
  if path.absolute then path else ⟨directory.absolute, moves directory.steps ++ path.steps⟩

/-- The path without its last move. -/
def parent (path : Path) : Path :=
  ⟨path.absolute, (moves path.steps).dropLast⟩

/-- The name to which the last move leads, unless it leads up. -/
def name? (path : Path) : Option String :=
  match (moves path.steps).getLast? with
  | some (.into name) => some name
  | _ => none

/-- The path to another name in the same directory; if the path has no name,
to one in the directory to which it leads. -/
def withName (path : Path) (name : String) : Path :=
  match path.name? with
  | some _ => ⟨path.absolute, path.parent.steps ++ [.into name]⟩
  | none => ⟨path.absolute, moves path.steps ++ [.into name]⟩

/-- The paths on the way to a path, which is the last of them. -/
def way (path : Path) : List Path :=
  (beginnings path.steps).map fun steps => ⟨path.absolute, steps⟩

/-- The number of bytes that steps take in a text, with a byte behind each. -/
def sizeOf : List Step → Nat
  | [] => 0
  | step :: rest => step.text.utf8ByteSize + 1 + sizeOf rest

/-- Whether a path can be looked up at all: with a byte at its end it takes no
more than 4096, and no name holds the character that ends texts. -/
def isUsable (path : Path) : Bool :=
  sizeOf path.steps + (if path.absolute then 1 else 0) ≤ 4096 &&
    path.steps.all fun step => !step.text.toList.contains '\x00'

end Path

end EmbeddedSql.Storage
