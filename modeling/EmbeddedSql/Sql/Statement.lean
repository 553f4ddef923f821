import EmbeddedSql.Sql.Vocabulary

/-!
# Statements

The six kinds of statements. A statement names its table and columns but knows
nothing of what is stored.
-/

namespace EmbeddedSql

/-- A column of a table: its name and its type. -/
structure Column where
  /-- The name. -/
  name : String
  /-- The type of every value in the column that is not null. -/
  type : ColumnType
  deriving DecidableEq, Repr

namespace Sql

/-- A comparison of a column with a value. -/
structure Condition where
  /-- The column on the left. -/
  field : String
  /-- The operator. -/
  operator : Operator
  /-- The value on the right. -/
  value : Value
  deriving DecidableEq, Repr

/-- A condition on rows: one of the groups holds, and a group holds if all its
comparisons do. Without any group it holds of every row. -/
abbrev Conditions := List (List Condition)

/-- The setting of a column to a value. -/
structure Assignment where
  /-- The column. -/
  field : String
  /-- The new value. -/
  value : Value
  deriving DecidableEq, Repr

/-- A choice of columns. -/
inductive Fields where
  /-- All columns. -/
  | all
  /-- The named columns, in this order; none at all if the list is empty. -/
  | named (names : List String)
  deriving DecidableEq, Repr

namespace Fields

/-- No columns. -/
def empty : Fields :=
  .named []

/-- The names that are written out. -/
def names : Fields → List String
  | .all => []
  | .named list => list

/-- Whether no columns are chosen. -/
def isEmpty : Fields → Bool
  | .named [] => true
  | _ => false

end Fields

/-- A statement that reads rows. -/
structure Select where
  /-- The table. -/
  table : String
  /-- The columns that are wanted. -/
  fields : Fields
  /-- Which rows are wanted. -/
  conditions : Conditions
  deriving DecidableEq, Repr

/-- A statement that adds rows. -/
structure Insert where
  /-- The table. -/
  table : String
  /-- The columns that the tuples give, in their order; all of the table's if no
  columns are listed. -/
  fields : Fields
  /-- A tuple of values for each row. -/
  tuples : List (List Value)
  /-- The columns wanted of the new rows. -/
  returning : Fields
  deriving DecidableEq, Repr

/-- A statement that changes rows. -/
structure Update where
  /-- The table. -/
  table : String
  /-- The new values. -/
  assignments : List Assignment
  /-- Which rows are changed. -/
  conditions : Conditions
  /-- The columns wanted of the changed rows. -/
  returning : Fields
  deriving DecidableEq, Repr

/-- A statement that removes rows. -/
structure Delete where
  /-- The table. -/
  table : String
  /-- Which rows are removed. -/
  conditions : Conditions
  /-- The columns wanted of the removed rows. -/
  returning : Fields
  deriving DecidableEq, Repr

/-- A statement that makes a table. -/
structure Create where
  /-- The table. -/
  table : String
  /-- Whether a table of that name may be there already. -/
  ifNotExists : Bool
  /-- The columns. -/
  columns : List Column
  deriving DecidableEq, Repr

/-- A statement that removes a table. -/
structure Drop where
  /-- The table. -/
  table : String
  /-- Whether the table may be missing. -/
  ifExists : Bool
  deriving DecidableEq, Repr

/-- A statement. -/
inductive Statement where
  /-- Reads rows. -/
  | select (statement : Select)
  /-- Adds rows. -/
  | insert (statement : Insert)
  /-- Changes rows. -/
  | update (statement : Update)
  /-- Removes rows. -/
  | delete (statement : Delete)
  /-- Makes a table. -/
  | create (statement : Create)
  /-- Removes a table. -/
  | drop (statement : Drop)
  deriving DecidableEq, Repr

/-- The table that a statement is about. -/
def Statement.table : Statement → String
  | .select s => s.table
  | .insert s => s.table
  | .update s => s.table
  | .delete s => s.table
  | .create s => s.table
  | .drop s => s.table

end Sql

end EmbeddedSql
