import EmbeddedSql.Config
import EmbeddedSql.Lock.Guard
import EmbeddedSql.Session.Effect

/-!
# Calls side by side

Many calls can be under way on one handle. A call runs until it has to wait:
for the guard of its table, for the commit lock, or for the store. Each move of
the system lets one call go on from where it waits, lets a read or a write take
place, or ends a call from outside, by its deadline or by an abort. Which move
comes next is left open.

A statement passes through these stages. It finds the guard of its table, if
need be by looking the table up in the store; it waits for the guard; unless it
only reads rows, it waits for the commit lock; it reads the document; and if it
changes anything, it writes the changed one. A statement that makes a table
asks for no guard. Reading and writing take place at one instant between their
beginning and their end.
-/

namespace EmbeddedSql.Session

open EmbeddedSql.Lock

/-- What can be asked of a handle. -/
inductive Call where
  /-- A statement is run. -/
  | execute (statement : Sql.Statement)
  /-- The names of all tables are wanted. -/
  | tableNames
  /-- The columns of a table are wanted. -/
  | schema (table : String)
  deriving DecidableEq, Repr

/-- What a call gives back if all goes well. -/
inductive Reply where
  /-- Rows. -/
  | rows (rows : List Row)
  /-- Names of tables. -/
  | names (names : List String)
  /-- Columns of a table. -/
  | columns (columns : List Column)
  deriving DecidableEq, Repr

/-- The locks that a call holds. -/
structure Locks where
  /-- The guard under which it has access to its table. -/
  guard : Option Nat
  /-- Whether it holds the commit lock. -/
  commit : Bool
  deriving DecidableEq, Repr

/-- Where a call stands. A read or a write that is under way has no answer
until it takes place. -/
inductive Stage where
  /-- The table is looked up in the store. -/
  | finding (answer : Option (Except StorageError Document))
  /-- The call waits for a guard. -/
  | queued (guard : Nat)
  /-- The call has access under a guard, if it needs one, and waits for the
  commit lock. -/
  | committing (guard : Option Nat)
  /-- The document is read. -/
  | loading (locks : Locks) (answer : Option (Except StorageError Document))
  /-- The changed document is written; the rows are given back after that. -/
  | storing (locks : Locks) (document : Document) (rows : List Row)
    (answer : Option (Except StorageError Unit))
  /-- The call has returned. -/
  | finished (result : Except Error Reply)
  /-- The call was given up. -/
  | aborted

/-- A call and where it stands. -/
structure Activity where
  /-- The call. -/
  call : Call
  /-- Where it stands. -/
  stage : Stage

/-- A handle, its store and the calls under way. Calls and guards are known by
their numbers, and a number is never used again. -/
structure System where
  /-- The settings. -/
  config : Config
  /-- The stored document. -/
  stored : Document
  /-- All guards there ever were. -/
  guards : List (Guard Nat)
  /-- The number of the guard of each known table. -/
  known : List (String × Nat)
  /-- The commit lock. -/
  commit : Semaphore Nat
  /-- All calls there ever were. -/
  calls : List Activity

namespace System

/-- A system on a document with no calls: each of the tables has a guard. -/
def ofDocument (config : Config) (document : Document) (known : List String) : System :=
  ⟨config, document, known.map fun _ => Guard.new, known.zipIdx, .ofPermits 1, []⟩

/-- The guard of a table that is known. -/
def guardOf? (s : System) (table : String) : Option Nat :=
  (s.known.find? fun entry => entry.1 = table).map Prod.snd

/-- The guard with a number. -/
def guardAt (s : System) (number : Nat) : Guard Nat :=
  s.guards.getD number Guard.new

/-- The system with a guard changed. -/
def setGuard (s : System) (number : Nat) (guard : Guard Nat) : System :=
  { s with guards := s.guards.set number guard }

/-- The system with a call at another stage. -/
def setStage (s : System) (call : Nat) (stage : Stage) : System :=
  { s with calls := s.calls.modify call fun activity => { activity with stage } }

/-- The system with a guard for a table: the one it has, or a new one. -/
def register (s : System) (table : String) : System :=
  match s.guardOf? table with
  | some _ => s
  | none =>
    { s with
      guards := s.guards ++ [Guard.new]
      known := s.known ++ [(table, s.guards.length)] }

/-- The system in which a guard is closed and no longer known for its table. -/
def retire (s : System) (table : String) (number : Nat) : System :=
  let s := { s with known := s.known.filter fun entry => entry ≠ (table, number) }
  s.setGuard number (s.guardAt number).close

/-- The system in which a call has given its locks back, the commit lock first. -/
def unlock (s : System) (call : Nat) (locks : Locks) : System :=
  let s := if locks.commit then { s with commit := s.commit.release } else s
  match locks.guard with
  | none => s
  | some number => s.setGuard number ((s.guardAt number).release call)

/-- The system in which a call has returned and given its locks back. -/
def finish (s : System) (call : Nat) (locks : Locks) (result : Except Error Reply) : System :=
  (s.unlock call locks).setStage call (.finished result)

/-- The kind of access that a statement needs to its table. -/
def accessOf : Sql.Statement → Access
  | .select _ => .read
  | _ => .write

/-- The result of a statement as that of its call. -/
def resultOf (statement : Sql.Statement) (result : Except Error (List Row)) :
    Except Error Reply :=
  (statement.excuse result).map .rows

/-- The system in which a call asks for the commit lock and, if it gets it,
begins to read. -/
def askCommit (s : System) (call : Nat) (guard : Option Nat) : System :=
  let (commit, answer) := s.commit.request call
  let s := { s with commit }
  match answer with
  | .granted => s.setStage call (.loading ⟨guard, true⟩ none)
  | _ => s.setStage call (.committing guard)

/-- The system in which a statement has got access under a guard. -/
def enter (s : System) (call : Nat) (statement : Sql.Statement) (number : Nat) : System :=
  match statement with
  | .select _ => s.setStage call (.loading ⟨some number, false⟩ none)
  | _ => s.askCommit call (some number)

/-- The system in which a statement goes on with what its request for a guard
has come to. A closed guard means that the table is gone. -/
def afterGuard (s : System) (call : Nat) (statement : Sql.Statement) (number : Nat) :
    Progress → System
  | .granted => s.enter call statement number
  | .failed =>
    s.setStage call
      (.finished (resultOf statement (.error (.catalog (.tableNotFound statement.table)))))
  | .waiting _ => s.setStage call (.queued number)

/-- The system in which a statement asks for access under a guard. -/
def askGuard (s : System) (call : Nat) (statement : Sql.Statement) (number : Nat) : System :=
  let (guard, progress) := (s.guardAt number).request call (accessOf statement)
  (s.setGuard number guard).afterGuard call statement number progress

/-- The system in which a statement has begun. -/
def beginStatement (s : System) (call : Nat) (statement : Sql.Statement) : System :=
  match statement with
  | .create _ =>
    match statement.precheck with
    | .error e => s.setStage call (.finished (.error e))
    | .ok () => s.askCommit call none
  | statement =>
    match s.guardOf? statement.table with
    | some number => s.askGuard call statement number
    | none => s.setStage call (.finding none)

/-- The system in which a new call has begun. -/
def begin (s : System) (call : Call) : System :=
  let number := s.calls.length
  let s := { s with calls := s.calls ++ [⟨call, .loading ⟨none, false⟩ none⟩] }
  match call with
  | .execute statement => s.beginStatement number statement
  | _ => s

/-- The system in which a table was looked up. -/
def afterFinding (s : System) (call : Nat) (statement : Sql.Statement) :
    Except StorageError Document → System
  | .error e => s.setStage call (.finished (.error (.storage e)))
  | .ok document =>
    if document.contains statement.table then
      let s := s.register statement.table
      match s.guardOf? statement.table with
      | some number => s.askGuard call statement number
      | none => s
    else
      s.setStage call
        (.finished (resultOf statement (.error (.catalog (.tableNotFound statement.table)))))

/-- The system in which a call has read the document. -/
def afterLoading (s : System) (number : Nat) (call : Call) (locks : Locks) :
    Except StorageError Document → System
  | .error e => s.finish number locks (.error (.storage e))
  | .ok document =>
    match call with
    | .tableNames => s.finish number locks (.ok (.names document.names))
    | .schema table =>
      s.finish number locks
        ((Sql.Statement.tableIn document table).map fun t => .columns t.schema)
    | .execute statement =>
      match statement.effect document with
      | .error e => s.finish number locks (resultOf statement (.error e))
      | .ok effect =>
        match effect.store with
        | none => s.finish number locks (.ok (.rows effect.rows))
        | some changed => s.setStage number (.storing locks changed effect.rows none)

/-- The system in which a statement has written the changed document. A new
table gets a guard, and that of a removed one is closed. -/
def afterStoring (s : System) (number : Nat) (call : Call) (locks : Locks) (rows : List Row) :
    Except StorageError Unit → System
  | .error e => s.finish number locks (.error (.storage e))
  | .ok () =>
    let s :=
      match call with
      | .execute (.create c) => s.register c.table
      | .execute (.drop d) =>
        match locks.guard with
        | some guard => s.retire d.table guard
        | none => s
      | _ => s
    s.finish number locks (.ok (.rows rows))

/-- The system in which a call goes on if what it waits for is there; none if
the call waits for the store to answer or has ended. -/
def resume (s : System) (number : Nat) : Option System := do
  let ⟨call, stage⟩ ← s.calls[number]?
  match call, stage with
  | .execute statement, .finding (some answer) => some (s.afterFinding number statement answer)
  | .execute statement, .queued guard =>
    let (g, progress) := (s.guardAt guard).poll number
    let progress ← progress
    some ((s.setGuard guard g).afterGuard number statement guard progress)
  | _, .committing guard =>
    let (commit, answer) := s.commit.poll number
    let s := { s with commit }
    match answer with
    | .granted => some (s.setStage number (.loading ⟨guard, true⟩ none))
    | _ => some s
  | call, .loading locks (some answer) => some (s.afterLoading number call locks answer)
  | call, .storing locks _ rows (some answer) =>
    some (s.afterStoring number call locks rows answer)
  | _, _ => none

/-- The system in which the read that a call has begun takes place, or fails
if a failure is given. -/
def readHappens (s : System) (number : Nat) (failure : Option StorageError) : Option System := do
  let ⟨_, stage⟩ ← s.calls[number]?
  let answer : Except StorageError Document :=
    match failure with
    | none => .ok s.stored
    | some e => .error e
  match stage with
  | .finding none => some (s.setStage number (.finding (some answer)))
  | .loading locks none => some (s.setStage number (.loading locks (some answer)))
  | _ => none

/-- The system in which the write that a call has begun takes place, or fails
and stores nothing if a failure is given. -/
def writeHappens (s : System) (number : Nat) (failure : Option StorageError) : Option System := do
  let ⟨_, stage⟩ ← s.calls[number]?
  match stage with
  | .storing locks document rows none =>
    match failure with
    | none =>
      some ({ s with stored := document }.setStage number
        (.storing locks document rows (some (.ok ()))))
    | some e => some (s.setStage number (.storing locks document rows (some (.error e))))
  | _ => none

/-- The system in which a statement has waited too long for its guard. -/
def expire (s : System) (number : Nat) : Option System := do
  let ⟨call, stage⟩ ← s.calls[number]?
  let timeout ← s.config.lockTimeout
  match call, stage with
  | .execute statement, .queued guard =>
    let s := s.setGuard guard ((s.guardAt guard).cancel number)
    some (s.setStage number
      (.finished (.error (.catalog (.lockTimeout statement.table timeout)))))
  | _, _ => none

/-- The system in which a call is given up: it leaves the queue in which it
waits and gives its locks back. What it has stored stays. -/
def abort (s : System) (number : Nat) : Option System := do
  let ⟨_, stage⟩ ← s.calls[number]?
  let s ←
    match stage with
    | .finding _ => some s
    | .queued guard => some (s.setGuard guard ((s.guardAt guard).cancel number))
    | .committing guard =>
      some ({ s with commit := s.commit.cancel number }.unlock number ⟨guard, false⟩)
    | .loading locks _ => some (s.unlock number locks)
    | .storing locks _ _ _ => some (s.unlock number locks)
    | .finished _ => none
    | .aborted => none
  some (s.setStage number .aborted)

end System

/-- A move of the system. -/
inductive Move where
  /-- A new call begins. -/
  | begin (call : Call)
  /-- The read of a call takes place, or fails. -/
  | read (call : Nat) (failure : Option StorageError)
  /-- The write of a call takes place, or fails. -/
  | write (call : Nat) (failure : Option StorageError)
  /-- A call goes on. -/
  | resume (call : Nat)
  /-- The deadline of a call passes. -/
  | expire (call : Nat)
  /-- A call is given up. -/
  | abort (call : Nat)
  deriving DecidableEq, Repr

/-- The system after a move, none if the move is not possible. -/
def System.move (s : System) : Move → Option System
  | .begin call => some (s.begin call)
  | .read call failure => s.readHappens call failure
  | .write call failure => s.writeHappens call failure
  | .resume call => s.resume call
  | .expire call => s.expire call
  | .abort call => s.abort call

end EmbeddedSql.Session
