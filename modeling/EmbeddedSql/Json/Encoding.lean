import EmbeddedSql.Json.Basic
import EmbeddedSql.Table.Document

/-!
# Stored data as JSON

The JSON form of values, rows, tables and documents: a row is an object of its
columns, a column an object with its name and type, and a document an object of
its tables.
-/

namespace EmbeddedSql

/-- A value as JSON. A number that is not finite becomes null. -/
def Value.toJson : Value → Json
  | .number n =>
    match Json.Numeral.ofNumber? n with
    | some numeral => .number numeral
    | none => .null
  | .text s => .string (some s)
  | .boolean b => .boolean b
  | .null => .null

/-- A row as JSON. -/
def Row.toJson (row : Row) : Json :=
  .object (row.columns.map fun pair => (some pair.1, pair.2.toJson))

/-- A column as JSON. -/
def Column.toJson (column : Column) : Json :=
  .object [(some "field", .string (some column.name)),
    (some "type", .string (some column.type.name))]

/-- A table as JSON. -/
def Table.toJson (table : Table) : Json :=
  .object [(some "schema", .array (table.schema.map Column.toJson)),
    (some "rows", .array (table.rows.map Row.toJson))]

/-- A document as JSON. -/
def Document.toJson (document : Document) : Json :=
  .object (document.tables.map fun pair => (some pair.1, pair.2.toJson))

end EmbeddedSql
