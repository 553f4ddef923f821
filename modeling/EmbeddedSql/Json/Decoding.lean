import EmbeddedSql.Config
import EmbeddedSql.Json.Encoding
import EmbeddedSql.Json.Reader

/-!
# Stored data from JSON

Reading is more liberal than writing. Where a form has named fields it may also
be a list of them in order; unknown fields are passed over, but none of the
known ones may be missing or repeated. Where an object maps names to data, the
last of several equal names counts.
-/

namespace EmbeddedSql

namespace Json

/-- The text that a string stands for. -/
def text? : Json → Option String
  | .string s => s
  | _ => none

/-- The items of a list. -/
def items? : Json → Option (List Json)
  | .array items => some items
  | _ => none

/-- The members of an object, if all their names stand for texts. -/
def members? : Json → Option (List (String × Json))
  | .object members => members.mapM fun (name, value) => name.map (·, value)
  | _ => none

/-- The value of a field that may stand at most once: none of it if it is
repeated. -/
def field? (name : String) (members : List (String × Json)) : Option (Option Json) :=
  match members.filter fun member => member.1 == name with
  | [] => some none
  | [member] => some (some member.2)
  | _ => none

/-- The values of named fields, given by an object or by a list in order. A
list may be too short but not too long. -/
def fields? (names : List String) (value : Json) : Option (List (Option Json)) :=
  match value with
  | .array items =>
    if items.length ≤ names.length then
      some (items.map some ++ List.replicate (names.length - items.length) none)
    else none
  | value => do
    let members ← value.members?
    names.mapM fun name => field? name members

end Json

/-- Reads the name of a column type. It may also be the only name in an object,
with null as its value. -/
def ColumnType.ofJson? (value : Json) : Option ColumnType := do
  let name ←
    match value with
    | .object [(some name, .null)] => some name
    | value => value.text?
  ColumnType.all.find? fun type => type.name == name

/-- Reads a value; lists and objects are none. -/
def Value.ofJson? (reading : Json.NumberReading) : Json → Option Value
  | .null => some .null
  | .boolean b => some (.boolean b)
  | .number n => (reading n).map .number
  | .string s => s.map .text
  | _ => none

/-- Reads a row: the columns are set in the order in which they stand. -/
def Row.ofJson? (reading : Json.NumberReading) (value : Json) : Option Row := do
  let .object _ := value | none
  let members ← value.members?
  let pairs ← members.mapM fun member => (Value.ofJson? reading member.2).map (member.1, ·)
  some (.ofList pairs)

/-- Reads a column. -/
def Column.ofJson? (value : Json) : Option Column := do
  let [some field, some type] ← value.fields? ["field", "type"] | none
  let name ← field.text?
  let type ← ColumnType.ofJson? type
  some ⟨name, type⟩

/-- Reads a table. -/
def Table.ofJson? (reading : Json.NumberReading) (value : Json) : Option Table := do
  let [some schema, some rows] ← value.fields? ["schema", "rows"] | none
  let columns ← schema.items?
  let schema ← columns.mapM Column.ofJson?
  let items ← rows.items?
  let rows ← items.mapM (Row.ofJson? reading)
  some ⟨schema, rows⟩

/-- Reads a document: the tables are inserted in the order in which they
stand. -/
def Document.ofJson? (reading : Json.NumberReading) (value : Json) : Option Document := do
  let members ← value.members?
  let pairs ← members.mapM fun member => (Table.ofJson? reading member.2).map (member.1, ·)
  some (.ofList pairs)

/-- Reads a document from its text. -/
def Document.read? (reading : Json.NumberReading) (source : Json.Source) : Option Document := do
  let value ← Json.read? source
  Document.ofJson? reading value

/-- Reads a whole number of at most 64 bits. -/
def Json.natural64? : Json → Option Nat
  | .number n => if !n.negative && n.isInteger64 then some n.whole else none
  | _ => none

/-- Reads settings. The timeout is a count of milliseconds or null, and may be
left out. -/
def Config.ofJson? (value : Json) : Option Config := do
  let [timeout] ← value.fields? ["lock_timeout_ms"] | none
  match timeout with
  | none => some .default
  | some .null => some ⟨none⟩
  | some value => (Json.natural64? value).map fun ms => ⟨some ⟨ms⟩⟩

end EmbeddedSql
