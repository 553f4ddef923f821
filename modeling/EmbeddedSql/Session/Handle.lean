import EmbeddedSql.Config
import EmbeddedSql.Session.Effect
import EmbeddedSql.Sql.Reading
import EmbeddedSql.Storage.Backend

/-!
# Handles, one statement at a time

A handle knows the tables for which it keeps a guard. While its statements run
one after another every guard is free when it is asked for, so all that is left
of guarding is to know the table: a table that the handle does not know is
looked up in the store first.
-/

namespace EmbeddedSql

/-- A handle on a store. -/
structure Handle where
  /-- The settings. -/
  config : Config
  /-- The tables for which there is a guard, each once. -/
  known : List String
  deriving DecidableEq, Repr

/-- A batch of statements of which one failed. -/
structure BatchError where
  /-- The rows of the statements before it. -/
  results : List (List Row)
  /-- Its error. -/
  error : Error
  deriving DecidableEq, Repr

/-- The message of a failed batch, where the error has one. -/
def BatchError.message? (e : BatchError) : Option String :=
  e.error.message?.map fun message =>
    "statement " ++ toString (e.results.length + 1) ++ " failed: " ++ message

namespace Handle

variable {σ : Type}

/-- A handle on a document that was read: its tables are known. -/
def ofDocument (config : Config) (document : Document) : Handle :=
  ⟨config, document.names⟩

/-- Opens a handle on a store. -/
def open? (backend : Storage.Backend σ) (config : Config) (store : σ) : Except Error Handle :=
  match backend.read store with
  | .ok document => .ok (ofDocument config document)
  | .error e => .error (.storage e)

/-- The handle with a table known. -/
def register (handle : Handle) (table : String) : Handle :=
  if table ∈ handle.known then handle else { handle with known := handle.known ++ [table] }

/-- The handle with a table no longer known. -/
def unregister (handle : Handle) (table : String) : Handle :=
  { handle with known := handle.known.erase table }

/-- The handle in the notation of diagnostics. -/
def describe (handle : Handle) : String :=
  "Database \x7b config: " ++ handle.config.describe ++ ", tables: " ++
    toString handle.known.length ++ ", .. \x7d"

/-- Reads the document in a store. -/
def load (backend : Storage.Backend σ) (store : σ) : Except Error Document :=
  (backend.read store).mapError .storage

/-- Makes sure that a statement's table is known. A new table need not be, and
one that is stored but not known becomes known. -/
def find (backend : Storage.Backend σ) (statement : Sql.Statement) (handle : Handle) (store : σ) :
    Except Error Handle :=
  match statement with
  | .create _ => .ok handle
  | statement =>
    if statement.table ∈ handle.known then .ok handle
    else do
      let document ← load backend store
      if document.contains statement.table then .ok (handle.register statement.table)
      else .error (.catalog (.tableNotFound statement.table))

/-- The handle after a statement whose change was stored. -/
def settle (statement : Sql.Statement) (handle : Handle) : Handle :=
  match statement with
  | .create s => handle.register s.table
  | .drop s => handle.unregister s.table
  | _ => handle

/-- Runs a statement whose table is known: reads the document and stores the
changed one. -/
def perform (backend : Storage.Backend σ) (statement : Sql.Statement) (handle : Handle)
    (store : σ) : Handle × σ × Except Error (List Row) :=
  match load backend store >>= statement.effect with
  | .error e => (handle, store, .error e)
  | .ok effect =>
    match effect.store with
    | none => (handle, store, .ok effect.rows)
    | some document =>
      match backend.write document store with
      | (store, .ok ()) => (handle.settle statement, store, .ok effect.rows)
      | (store, .error e) => (handle, store, .error (.storage e))

/-- Runs a statement. -/
def execute (backend : Storage.Backend σ) (statement : Sql.Statement) (handle : Handle)
    (store : σ) : Handle × σ × Except Error (List Row) :=
  match statement.precheck with
  | .error e => (handle, store, .error e)
  | .ok () =>
    match find backend statement handle store with
    | .error e => (handle, store, statement.excuse (.error e))
    | .ok handle =>
      let (handle, store, result) := perform backend statement handle store
      (handle, store, statement.excuse result)

/-- Runs statements one after another up to the first one that fails, given the
rows of those that ran before. -/
def executeAll (backend : Storage.Backend σ) (done : List (List Row)) :
    List Sql.Statement → Handle → σ → Handle × σ × Except BatchError (List (List Row))
  | [], handle, store => (handle, store, .ok done)
  | statement :: rest, handle, store =>
    match execute backend statement handle store with
    | (handle, store, .ok rows) => executeAll backend (done ++ [rows]) rest handle store
    | (handle, store, .error e) => (handle, store, .error ⟨done, e⟩)

/-- Runs the statements of a script, of which all are read before any is run,
and gives the rows of each. -/
def runAll (backend : Storage.Backend σ) (script : List Char) (handle : Handle) (store : σ) :
    Handle × σ × Except BatchError (List (List Row)) :=
  match Sql.parseScript script with
  | .error e => (handle, store, .error ⟨[], e⟩)
  | .ok statements => executeAll backend [] statements handle store

/-- Runs statements one after another up to the first one that fails, given the
rows of the one that ran before. -/
def executeLast (backend : Storage.Backend σ) (last : List Row) :
    List Sql.Statement → Handle → σ → Handle × σ × Except Error (List Row)
  | [], handle, store => (handle, store, .ok last)
  | statement :: rest, handle, store =>
    match execute backend statement handle store with
    | (handle, store, .ok rows) => executeLast backend rows rest handle store
    | (handle, store, .error e) => (handle, store, .error e)

/-- Runs the statements of a template with its parameters written into it, and
gives the rows of the last one. -/
def run (backend : Storage.Backend σ) (template : List Char) (parameters : List Value)
    (handle : Handle) (store : σ) : Handle × σ × Except Error (List Row) :=
  match Sql.bindTemplate template parameters with
  | .error e => (handle, store, .error e)
  | .ok script =>
    match Sql.parseScript script with
    | .error e => (handle, store, .error e)
    | .ok statements => executeLast backend [] statements handle store

/-- The names of the stored tables, in increasing order. -/
def tableNames (backend : Storage.Backend σ) (store : σ) : Except Error (List String) :=
  (load backend store).map (·.names)

/-- The columns of a stored table. -/
def schema (backend : Storage.Backend σ) (table : String) (store : σ) :
    Except Error (List Column) := do
  let document ← load backend store
  let table ← Sql.Statement.tableIn document table
  .ok table.schema

end Handle

end EmbeddedSql
