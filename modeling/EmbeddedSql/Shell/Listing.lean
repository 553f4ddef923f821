import EmbeddedSql.Table.Row
import EmbeddedSql.Text.Fill

/-!
# Listings

Rows and columns as the shell shows them.
-/

namespace EmbeddedSql.Shell

/-- The width up to which a cell is padded. -/
def cellWidth : Nat :=
  8

/-- The width up to which a column's name is padded. -/
def nameWidth : Nat :=
  16

/-- A line of cells. -/
def cellLine (cells : List String) : String :=
  " | ".intercalate (cells.map (Text.padded cellWidth))

/-- The lines that show rows: the names of the first row's columns, the rows
with their numbers, and how many there are. If there are none, all went well
all the same. -/
def rowLines (rows : List Row) : List String :=
  match rows with
  | [] => ["OK"]
  | first :: _ =>
    cellLine ("#" :: first.names) ::
      (rows.zipIdx.map fun (row, number) =>
        cellLine (toString number :: row.columns.map fun column => column.2.display)) ++
      ["(" ++ toString rows.length ++ " rows)"]

/-- The line that shows a column of a table. -/
def columnLine (name : String) (type : ColumnType) : String :=
  Text.padded nameWidth name ++ " " ++ type.name

end EmbeddedSql.Shell
