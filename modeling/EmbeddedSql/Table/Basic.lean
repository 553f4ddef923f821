import EmbeddedSql.Table.Filter

/-!
# Tables and what statements do to them

A table is a list of columns and a list of rows in the order of their
insertion. The functions here apply a statement to a table without checking
that it fits the columns.
-/

namespace EmbeddedSql

/-- A table. -/
structure Table where
  /-- The columns, in order. -/
  schema : List Column
  /-- The rows, in the order of their insertion. -/
  rows : List Row
  deriving DecidableEq, Repr

/-- What a statement that changes rows does: the table it leaves, the rows it
gives back, and how many rows it was about. -/
structure Mutation where
  /-- The table afterwards. -/
  table : Table
  /-- The rows given back. -/
  returned : List Row
  /-- How many rows were added, changed or removed. -/
  affected : Nat
  deriving DecidableEq, Repr

namespace Table

/-- A table without rows. -/
def ofSchema (schema : List Column) : Table :=
  ⟨schema, []⟩

/-- The names of the columns. -/
def columnNames (table : Table) : List String :=
  table.schema.map (·.name)

/-- The first column with a name. -/
def column? (schema : List Column) (name : String) : Option Column :=
  schema.find? fun column => column.name == name

/-- The rows that a statement asks for. -/
def select (table : Table) (statement : Sql.Select) : List Row :=
  (table.rows.filter statement.conditions.accept).map statement.fields.select

/-- The columns that the tuples of an insertion give. -/
def insertColumns (table : Table) (fields : Sql.Fields) : List String :=
  match fields with
  | .all => table.columnNames
  | .named list => list

/-- The row that a tuple becomes: null in every column of the table, then the
given values in theirs. -/
def rowOfTuple (table : Table) (fields : Sql.Fields) (tuple : List Value) : Row :=
  (Row.ofList (table.columnNames.map (·, .null))).setAll ((table.insertColumns fields).zip tuple)

/-- Adds a row for each tuple, at the end. -/
def insert (table : Table) (statement : Sql.Insert) : Mutation :=
  let rows := statement.tuples.map (table.rowOfTuple statement.fields)
  ⟨⟨table.schema, table.rows ++ rows⟩, statement.returning.project rows, rows.length⟩

/-- A row with all assignments made. -/
def assign (assignments : List Sql.Assignment) (row : Row) : Row :=
  row.setAll (assignments.map fun a => (a.field, a.value))

/-- Makes the assignments in every chosen row, in its place; the rows given back
are those after it. -/
def update (table : Table) (statement : Sql.Update) : Mutation :=
  let changed := (table.rows.filter statement.conditions.accept).map (assign statement.assignments)
  let rows := table.rows.map fun row =>
    if statement.conditions.accept row then assign statement.assignments row else row
  ⟨⟨table.schema, rows⟩, statement.returning.project changed, changed.length⟩

/-- Removes the chosen rows, which are given back as they were. -/
def delete (table : Table) (statement : Sql.Delete) : Mutation :=
  let removed := table.rows.filter statement.conditions.accept
  let kept := table.rows.filter fun row => !statement.conditions.accept row
  ⟨⟨table.schema, kept⟩, statement.returning.project removed, removed.length⟩

end Table

end EmbeddedSql
