import EmbeddedSql.Table.Basic

/-!
# Validation

Whether a statement fits the columns of its table. The checks of a statement
are made in a fixed order and the first one that fails is reported.
-/

namespace EmbeddedSql.Sql

/-- Why a statement does not fit its table. -/
inductive ValidationError where
  /-- The table has no such column. -/
  | columnNotFound (table column : String)
  /-- A value of another kind than the column's. -/
  | typeMismatch (column : String) (expected : ColumnType) (found : Value)
  /-- A comparison by order on a column that holds no numbers. -/
  | nonNumericComparison (column : String) (operator : Operator) (type : ColumnType)
  /-- A tuple with more or fewer values than there are columns to set. -/
  | valueCountMismatch (expected found : Nat)
  /-- A column that is named more than once. -/
  | duplicateColumn (column : String)
  deriving DecidableEq, Repr

namespace Validation

/-- The column with a name. -/
def column (table : String) (schema : List Column) (name : String) :
    Except ValidationError Column :=
  match Table.column? schema name with
  | some column => .ok column
  | none => .error (.columnNotFound table name)

/-- The first name that stands in the list a second time, given the names in
front of it. -/
def firstRepeated (seen : List String) : List String → Option String
  | [] => none
  | name :: rest => if name ∈ seen then some name else firstRepeated (name :: seen) rest

/-- Names must not be repeated. -/
def distinct (names : List String) : Except ValidationError Unit :=
  match firstRepeated [] names with
  | none => .ok ()
  | some name => .error (.duplicateColumn name)

/-- A value must fit its column. -/
def value (column : Column) (v : Value) : Except ValidationError Unit :=
  if v.fits column.type then .ok () else .error (.typeMismatch column.name column.type v)

/-- Every chosen column must exist. -/
def fields (table : String) (schema : List Column) (fields : Fields) :
    Except ValidationError Unit :=
  fields.names.forM fun name => (column table schema name).map fun _ => ()

/-- A comparison must be on an existing column, by order only on numbers, and
with a value that fits. -/
def condition (table : String) (schema : List Column) (c : Condition) :
    Except ValidationError Unit := do
  let column ← column table schema c.field
  if c.operator.isOrdering && column.type != .numeric then
    .error (.nonNumericComparison column.name c.operator column.type)
  else value column c.value

/-- Every comparison must be in order. -/
def conditions (table : String) (schema : List Column) (conditions : Conditions) :
    Except ValidationError Unit :=
  conditions.flatten.forM (condition table schema)

/-- Every value of a tuple must fit the column in the same place. -/
def values : List Column → List Value → Except ValidationError Unit
  | column :: columns, v :: rest => do
    value column v
    values columns rest
  | _, _ => .ok ()

/-- A tuple must give a fitting value for each column. -/
def tuple (columns : List Column) (tuple : List Value) : Except ValidationError Unit :=
  if tuple.length = columns.length then values columns tuple
  else .error (.valueCountMismatch columns.length tuple.length)

/-- The columns that the tuples of an insertion give; listed ones must exist
and not be repeated. -/
def insertColumns (table : String) (schema : List Column) (fields : Fields) :
    Except ValidationError (List Column) :=
  match fields with
  | .all => .ok schema
  | .named list => do
    distinct list
    list.mapM (column table schema)

/-- Checks a statement that reads rows. -/
def select (table : String) (schema : List Column) (s : Select) : Except ValidationError Unit := do
  fields table schema s.fields
  conditions table schema s.conditions

/-- Checks a statement that adds rows. -/
def insert (table : String) (schema : List Column) (s : Insert) : Except ValidationError Unit := do
  let columns ← insertColumns table schema s.fields
  s.tuples.forM (tuple columns)
  fields table schema s.returning

/-- An assignment must be to an existing column and of a fitting value. -/
def assignment (table : String) (schema : List Column) (a : Assignment) :
    Except ValidationError Unit := do
  let column ← column table schema a.field
  value column a.value

/-- Checks a statement that changes rows. -/
def update (table : String) (schema : List Column) (s : Update) : Except ValidationError Unit := do
  distinct (s.assignments.map (·.field))
  s.assignments.forM (assignment table schema)
  conditions table schema s.conditions
  fields table schema s.returning

/-- Checks a statement that removes rows. -/
def delete (table : String) (schema : List Column) (s : Delete) : Except ValidationError Unit := do
  conditions table schema s.conditions
  fields table schema s.returning

/-- The columns of a new table must have distinct names. -/
def definitions (columns : List Column) : Except ValidationError Unit :=
  distinct (columns.map (·.name))

end Validation

/-- Checks a statement against the columns of the table, which goes by the
given name in errors. -/
def Statement.validate (table : String) (schema : List Column) :
    Statement → Except ValidationError Unit
  | .select s => Validation.select table schema s
  | .insert s => Validation.insert table schema s
  | .update s => Validation.update table schema s
  | .delete s => Validation.delete table schema s
  | .create s => Validation.definitions s.columns
  | .drop _ => .ok ()

end EmbeddedSql.Sql
