import EmbeddedSql.Error
import EmbeddedSql.Table.Document

/-!
# The effect of a statement on a document

What a statement comes to once it has the document in its hands: an error, or
the rows it gives back and the document it wants stored, if there is anything
to store.
-/

namespace EmbeddedSql

/-- What a statement comes to. -/
structure Effect where
  /-- The rows given back. -/
  rows : List Row
  /-- The document to be stored; none if nothing is changed. -/
  store : Option Document

namespace Sql.Statement

/-- The table with a name, or the error that there is none. -/
def tableIn (document : Document) (name : String) : Except Error Table :=
  match document.find? name with
  | some table => .ok table
  | none => .error (.catalog (.tableNotFound name))

/-- The effect of rows being added, changed or removed in a table. Nothing is
stored unless there was a row to act on. -/
def effectOf (document : Document) (name : String) (mutation : Mutation) : Effect :=
  ⟨mutation.returned,
    if 0 < mutation.affected then some (document.insert name mutation.table) else none⟩

/-- What making a table comes to. -/
def createIn (document : Document) (s : Create) : Except Error Effect :=
  if document.contains s.table then
    if s.ifNotExists then .ok ⟨[], none⟩ else .error (.catalog (.tableExists s.table))
  else .ok ⟨[], some (document.insert s.table (.ofSchema s.columns))⟩

/-- What removing a table comes to, no matter whether it may be missing. -/
def dropIn (document : Document) (s : Drop) : Except Error Effect :=
  if document.contains s.table then .ok ⟨[], some (document.erase s.table)⟩
  else .error (.catalog (.tableNotFound s.table))

/-- The effect of a statement on a document, after it was checked against the
table's columns. -/
def effect (statement : Statement) (document : Document) : Except Error Effect :=
  match statement with
  | .select s => do
    let table ← tableIn document s.table
    (statement.validate s.table table.schema).mapError .validation
    .ok ⟨table.select s, none⟩
  | .insert s => do
    let table ← tableIn document s.table
    (statement.validate s.table table.schema).mapError .validation
    .ok (effectOf document s.table (table.insert s))
  | .update s => do
    let table ← tableIn document s.table
    (statement.validate s.table table.schema).mapError .validation
    .ok (effectOf document s.table (table.update s))
  | .delete s => do
    let table ← tableIn document s.table
    (statement.validate s.table table.schema).mapError .validation
    .ok (effectOf document s.table (table.delete s))
  | .create s => createIn document s
  | .drop s => dropIn document s

/-- Whether a statement takes a missing table for no error. -/
def mayMiss : Statement → Bool
  | .drop s => s.ifExists
  | _ => false

/-- The result of a statement that ends without a document to store: a missing
table is no error if the statement says so. -/
def excuse (statement : Statement) (result : Except Error (List Row)) :
    Except Error (List Row) :=
  match result with
  | .error (.catalog (.tableNotFound table)) =>
    if statement.mayMiss then .ok [] else .error (.catalog (.tableNotFound table))
  | result => result

/-- What is checked before a statement asks for anything: that a new table's
columns have distinct names. -/
def precheck : Statement → Except Error Unit
  | .create s => (Validation.definitions s.columns).mapError .validation
  | _ => .ok ()

end Sql.Statement

end EmbeddedSql
