import EmbeddedSql.Session.Handle
import EmbeddedSql.Shell.Arguments
import EmbeddedSql.Shell.Listing
import EmbeddedSql.Shell.Report
import EmbeddedSql.Storage.Store

/-!
# A session at the shell

The shell reads lines. Statements may run over several lines and are run when a
line ends with a semicolon. Between statements a line can also hold a command.
A session is over at the word `exit` or at the end of the input.
-/

namespace EmbeddedSql.Shell

/-- What a line asks for. -/
inductive Command where
  /-- Nothing. -/
  | nothing
  /-- To end the session. -/
  | leave
  /-- To show the names of the tables. -/
  | tables
  /-- To show the columns of a table. -/
  | schema (table : String)
  /-- Something that there is not. -/
  | unknown (text : String)
  /-- To run statements. -/
  | execute (statements : List (List Char))
  deriving DecidableEq, Repr

namespace Command

/-- The command that begins with a dot. -/
def ofDotted (text : List Char) : Command :=
  match (Text.words text).map String.ofList with
  | [".tables"] => .tables
  | ".schema" :: table :: _ => .schema table
  | _ => .unknown (String.ofList text)

/-- The lines that wait for the end of a statement once another line was read,
and what that line asks for. -/
def read (pending line : List Char) : List Char × Command :=
  let text := Text.trim line
  if pending = [] ∧ text = [] then ([], .nothing)
  else if pending = [] ∧ text = "exit".toList then ([], .leave)
  else if pending = [] ∧ text.head? = some '.' then ([], ofDotted text)
  else
    let pending := pending ++ line ++ ['\n']
    if text.getLast? = some ';' then ([], .execute (Sql.Script.statements pending))
    else (pending, .nothing)

end Command

/-- The prompt, which tells whether lines wait for the end of a statement. -/
def prompt (pending : List Char) : String :=
  if pending = [] then "skiff> " else "   ... "

/-- What is shown at the beginning of a session. -/
def greeting (data : Option String) : String :=
  let place :=
    match data with
    | some path => path
    | none => "a transient in-memory database"
  unlines ["Connected to " ++ place,
    "Statements end with ';'. Type .tables, .schema <table> or exit."]

/-- What is shown at the end of a session. -/
def farewell : String :=
  unlines ["Exiting skiff"]

variable {σ : Type}

/-- Runs statements one after another up to the first one that fails, and shows
what they come to. -/
def executeAll (backend : Storage.Backend σ) :
    List (List Char) → Handle → σ → Handle × σ × String
  | [], handle, store => (handle, store, "")
  | statement :: rest, handle, store =>
    match handle.run backend statement [] store with
    | (handle, store, .error e) => (handle, store, report e (some statement))
    | (handle, store, .ok rows) =>
      let (handle, store, shown) := executeAll backend rest handle store
      (handle, store, unlines (rowLines rows) ++ shown)

/-- What is shown of the tables' names. -/
def showTables (backend : Storage.Backend σ) (store : σ) : String :=
  match Handle.tableNames backend store with
  | .ok names => unlines names
  | .error e => report e none

/-- What is shown of a table's columns. -/
def showSchema (backend : Storage.Backend σ) (table : String) (store : σ) : String :=
  match Handle.schema backend table store with
  | .ok columns => unlines (columns.map fun column => columnLine column.name column.type)
  | .error e => report e none

/-- Does what a command asks for, and shows what it comes to. -/
def perform (backend : Storage.Backend σ) (command : Command) (handle : Handle) (store : σ) :
    Handle × σ × String :=
  match command with
  | .nothing => (handle, store, "")
  | .leave => (handle, store, "")
  | .tables => (handle, store, showTables backend store)
  | .schema table => (handle, store, showSchema backend table store)
  | .unknown text => (handle, store, unlines ["Unknown command: " ++ text])
  | .execute statements => executeAll backend statements handle store

/-- Reads lines to the end of the session, given those that wait for the end of
a statement: the store afterwards and all that is shown. -/
def converse (backend : Storage.Backend σ) :
    List (List Char) → List Char → Handle → σ → σ × String
  | [], pending, _, store => (store, prompt pending ++ farewell)
  | line :: rest, pending, handle, store =>
    match Command.read pending line with
    | (_, .leave) => (store, prompt pending ++ farewell)
    | (next, command) =>
      let (handle, store, shown) := perform backend command handle store
      let (store, later) := converse backend rest next handle store
      (store, prompt pending ++ shown ++ later)

/-- The lines of an input, without the line breaks. A carriage return counts as
part of the line break behind it, and the last line needs no line break. -/
def inputLines : List Char → List (List Char)
  | [] => []
  | '\r' :: '\n' :: rest => [] :: inputLines rest
  | '\n' :: rest => [] :: inputLines rest
  | c :: rest =>
    match inputLines rest with
    | [] => [[c]]
    | line :: others => (c :: line) :: others

/-- What the arguments are. -/
def usage : String :=
  unlines ["Interactive shell for skiff-db",
    "",
    "Usage: skiff [OPTIONS]",
    "",
    "Options:",
    "      --data <DATA>",
    "          JSON file holding the database. Omit to keep everything in memory",
    "      --lock-timeout-ms <LOCK_TIMEOUT_MS>",
    "          Give up on a statement after waiting this long for its table",
    "      --log-level <LOG_LEVEL>",
    "          Most verbose tracing level written to stderr [default: warn]",
    "  -h, --help",
    "          Print help",
    "  -V, --version",
    "          Print version"]

/-- The version. -/
def version : String :=
  unlines ["skiff 0.1.0"]

/-- What a run of the shell leaves behind. -/
structure Outcome where
  /-- The exit code: zero if all went well, one if the document could not be
  read, two if the arguments could not. -/
  exit : Nat
  /-- What was shown. -/
  shown : String
  /-- The files. -/
  files : Storage.FileSystem

/-- The store that settings ask for. -/
def Options.store (options : Options) (files : Storage.FileSystem) : Storage.Store :=
  match options.data with
  | some path => .file (.ofText path) files
  | none => .memory .empty

/-- The handle's settings that the shell's settings ask for. -/
def Options.config (options : Options) : Config :=
  ⟨options.lockTimeout⟩

/-- Runs the shell with arguments on an input. -/
def run (reading : Json.NumberReading) (arguments : List String) (input : List Char)
    (files : Storage.FileSystem) : Outcome :=
  match Invocation.read .default arguments with
  | .error _ => ⟨2, "", files⟩
  | .ok .version => ⟨0, version, files⟩
  | .ok .help => ⟨0, usage, files⟩
  | .ok (.start options) =>
    let backend := Storage.Store.backend reading
    let store := options.store files
    match Handle.open? backend options.config store with
    | .error _ => ⟨1, "", files⟩
    | .ok handle =>
      let (store, shown) := converse backend (inputLines input) [] handle store
      ⟨0, greeting options.data ++ shown, store.files.getD files⟩

end EmbeddedSql.Shell
