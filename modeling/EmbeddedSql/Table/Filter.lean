import EmbeddedSql.Sql.Statement
import EmbeddedSql.Table.Row

/-!
# Choosing rows and columns

Conditions decide which rows a statement is about, and fields which of their
columns it gives back.
-/

namespace EmbeddedSql

namespace Sql.Condition

/-- Whether two numbers stand in the relation of an operator; never for one
that does not order. -/
def ordered (operator : Operator) (x y : Binary64) : Bool :=
  match operator with
  | .less => x.numLt y
  | .lessOrEqual => x.numLe y
  | .greater => y.numLt x
  | .greaterOrEqual => y.numLe x
  | _ => false

/-- Whether a comparison holds of a row. A missing column counts as null.
Equality and its opposite compare any two values, the other operators numbers
only. -/
def holds (condition : Condition) (row : Row) : Bool :=
  let stored := (row.get? condition.field).getD .null
  match condition.operator with
  | .equal => stored.same condition.value
  | .notEqual => !stored.same condition.value
  | operator =>
    match stored.number?, condition.value.number? with
    | some x, some y => ordered operator x y
    | _, _ => false

end Sql.Condition

namespace Sql.Conditions

/-- Whether a row is chosen: there are no groups, or all comparisons of one
group hold of it. -/
def accept (conditions : Conditions) (row : Row) : Bool :=
  conditions.isEmpty || conditions.any fun group => group.all (·.holds row)

end Sql.Conditions

namespace Sql.Fields

/-- The chosen columns of a row, in the order of the choice; a column that the
row does not have is left out. -/
def select (fields : Fields) (row : Row) : Row :=
  match fields with
  | .all => row
  | .named list => .ofList (list.filterMap fun name => (row.get? name).map (name, ·))

/-- The chosen columns of every row; no rows if no columns are chosen. -/
def project (fields : Fields) (rows : List Row) : List Row :=
  if fields.isEmpty then [] else rows.map fields.select

end Sql.Fields

end EmbeddedSql
