import EmbeddedSql.Json.Decoding
import EmbeddedSql.Proofs.Json.Layout
import EmbeddedSql.Proofs.Table.Likeness
import EmbeddedSql.Proofs.Table.Rows

/-!
# Documents written and read as JSON

A document whose numbers are finite is read back from its compact and from its
pretty text as a document like it, if the reading of numbers gives every number
back from its shortest digits. So is a document that was read from any text,
since reading leaves finite numbers and distinct names.
-/

namespace EmbeddedSql

open Json (NumberReading Plain)
open Json.Numeral (withIntegers)

/-! ## Rows as they are made -/

/-- A row is proper if it could be made by setting columns to values without a
number that is not finite. -/
structure Row.Proper (row : Row) : Prop where
  /-- The names of the columns are distinct. -/
  distinct : row.names.Nodup
  /-- Numbers are finite. -/
  finite : ∀ pair ∈ row.columns, pair.2.isFinite = true

/-- A document is proper if all its rows are. -/
def Document.Proper (document : Document) : Prop :=
  ∀ pair ∈ document.tables, ∀ row ∈ pair.2.rows, row.Proper

namespace Row

/-- A row without columns is proper. -/
theorem proper_empty : empty.Proper :=
  ⟨.nil, List.forall_mem_nil _⟩

/-- Whatever stands in a row after a value was put there is that value or was there before. -/
theorem mem_put {name : String} {value : Value} {columns : List (String × Value)}
    {pair : String × Value} (h : pair ∈ put name value columns) :
    pair.2 = value ∨ pair ∈ columns := by
  induction columns with
  | nil =>
    obtain rfl := List.mem_singleton.mp h
    exact .inl rfl
  | cons first rest ih =>
    obtain ⟨column, old⟩ := first
    rw [put] at h
    split at h
    · rcases List.mem_cons.mp h with rfl | h
      · exact .inl rfl
      · exact .inr (List.mem_cons_of_mem _ h)
    · rcases List.mem_cons.mp h with rfl | h
      · exact .inr List.mem_cons_self
      · exact (ih h).imp_right (List.mem_cons_of_mem _)

/-- Setting a column keeps a row proper. -/
theorem Proper.set {row : Row} (h : row.Proper) (name : String) {value : Value}
    (hv : value.isFinite = true) : (row.set name value).Proper := by
  constructor
  · exact nodup_names_set h.distinct name value
  · intro pair hp
    rcases mem_put hp with hnew | hold
    · rw [hnew, hv]
    · exact h.finite pair hold

/-- A row built from finite values is proper. -/
theorem proper_ofList {pairs : List (String × Value)}
    (h : ∀ pair ∈ pairs, pair.2.isFinite = true) : (ofList pairs).Proper := by
  have hset (row : Row) (hr : row.Proper) : (row.setAll pairs).Proper := by
    induction pairs generalizing row with
    | nil => exact hr
    | cons pair rest ih =>
      obtain ⟨hp, hrest⟩ := List.forall_mem_cons.mp h
      exact ih hrest _ (hr.set pair.1 hp)
  exact hset empty proper_empty

/-- Pairs with distinct names are the columns of the row built from them. -/
theorem ofList_of_nodup {pairs : List (String × Value)} (h : (pairs.map Prod.fst).Nodup) :
    ofList pairs = ⟨pairs⟩ :=
  setAll_of_nodup (by rwa [List.nil_append])

end Row

namespace Document

/-- A table whose name comes behind all others is put at the end. -/
theorem put_of_lt {name : String} {table : Table} {pairs : List (String × Table)}
    (h : ∀ pair ∈ pairs, pair.1 < name) : put name table pairs = pairs ++ [(name, table)] := by
  induction pairs with
  | nil => rfl
  | cons first rest ih =>
    obtain ⟨key, old⟩ := first
    obtain ⟨hfirst, hrest⟩ := List.forall_mem_cons.mp h
    have hlt : ¬ name < key := String.lt_asymm hfirst
    have hne : name ≠ key := fun he => String.lt_irrefl key (he ▸ hfirst)
    rw [put, if_neg hlt, if_neg hne, ih hrest, List.cons_append]

/-- Tables whose names increase are the tables of the document built from them. -/
theorem tables_ofList {pairs : List (String × Table)}
    (h : pairs.Pairwise fun a b => a.1 < b.1) : (ofList pairs).tables = pairs := by
  have hinsert (document : Document)
      (hd : (document.tables ++ pairs).Pairwise fun a b => a.1 < b.1) :
      (pairs.foldl (fun document pair => document.insert pair.1 pair.2) document).tables =
        document.tables ++ pairs := by
    clear h
    induction pairs generalizing document with
    | nil => exact (List.append_nil _).symm
    | cons pair rest ih =>
      have hlast : ∀ other ∈ document.tables, other.1 < pair.1 := fun other hm =>
        (List.pairwise_append.mp hd).2.2 other hm pair List.mem_cons_self
      have htables : (document.insert pair.1 pair.2).tables = document.tables ++ [pair] :=
        put_of_lt hlast
      rw [List.foldl_cons, ih _ (by rwa [htables, List.append_assoc, List.singleton_append]),
        htables, List.append_assoc, List.singleton_append]
  exact hinsert empty h

/-- The tables of a document built from pairs are among them. -/
theorem mem_of_mem_ofList {pairs : List (String × Table)} {pair : String × Table}
    (h : pair ∈ (ofList pairs).tables) : pair ∈ pairs := by
  have hinsert (document : Document)
      (hp : pair ∈ (pairs.foldl (fun document pair => document.insert pair.1 pair.2)
        document).tables) : pair ∈ document.tables ∨ pair ∈ pairs := by
    clear h
    induction pairs generalizing document with
    | nil => exact .inl hp
    | cons first rest ih =>
      rcases ih _ hp with hm | hm
      · rcases eq_or_mem_of_mem_put hm with rfl | hm
        · exact .inr List.mem_cons_self
        · exact .inl hm
      · exact .inr (List.mem_cons_of_mem first hm)
  exact (hinsert empty h).resolve_left List.not_mem_nil

end Document

/-! ## Writing and reading back -/

/-- The members of an object whose names are texts. -/
theorem Json.members?_object {α : Type} (name : α → String) (value : α → Json) (list : List α) :
    (Json.object (list.map fun a => (some (name a), value a))).members? =
      some (list.map fun a => (name a, value a)) := by
  rw [Json.members?]
  induction list with
  | nil => rfl
  | cons a rest ih =>
    rw [List.map_cons, List.mapM_cons, ih]
    rfl

/-- A column is read back. -/
theorem Column.ofJson?_toJson (column : Column) : Column.ofJson? column.toJson = some column := by
  obtain ⟨name, type⟩ := column
  cases type <;> rfl

/-- Columns are read back as they were written. -/
theorem Column.mapM_ofJson? (schema : List Column) :
    (schema.map Column.toJson).mapM Column.ofJson? = some schema := by
  obtain ⟨columns, hm, hcolumns⟩ := Result.exists_mapM_map (R := Eq) fun column _ =>
    ⟨column, Column.ofJson?_toJson column, rfl⟩
  rw [List.forall₂_eq_eq_eq] at hcolumns
  rw [hm, hcolumns]

section

variable {double : NumberReading} (h : double.ReadsBack)
include h

/-- A finite value is read back as a value like it. -/
theorem Value.exists_ofJson? {v : Value} (hv : v.isFinite = true) :
    ∃ w, Value.ofJson? (withIntegers double) v.toJson = some w ∧ v.Alike w := by
  cases v with
  | number n =>
    obtain ⟨numeral, m, hn, hread, heq⟩ := Json.Numeral.exists_ofNumber? h hv
    refine ⟨.number m, ?_, .number heq⟩
    rw [toJson, hn, ofJson?, hread, Option.map_some]
  | text s => exact ⟨.text s, rfl, .text s⟩
  | boolean b => exact ⟨.boolean b, rfl, .boolean b⟩
  | null => exact ⟨.null, rfl, .null⟩

/-- A proper row is read back as a row like it. -/
theorem Row.exists_ofJson? {row : Row} (hr : row.Proper) :
    ∃ other, Row.ofJson? (withIntegers double) row.toJson = some other ∧ row.Alike other := by
  have hread : ∀ pair ∈ row.columns, ∃ other : String × Value,
      (Value.ofJson? (withIntegers double) pair.2.toJson).map (pair.1, ·) = some other ∧
        Row.PairAlike pair other := by
    intro pair hp
    obtain ⟨w, hw, halike⟩ := Value.exists_ofJson? h (hr.finite pair hp)
    exact ⟨(pair.1, w), by rw [hw, Option.map_some], rfl, halike⟩
  obtain ⟨pairs, hpairs, halike⟩ := Result.exists_mapM_map (g := fun pair : String × Value =>
    (pair.1, pair.2.toJson)) (f := fun member => (Value.ofJson? (withIntegers double) member.2).map
    (member.1, ·)) hread
  have hrow : row.Alike ⟨pairs⟩ := halike
  have hdistinct : (pairs.map Prod.fst).Nodup := by
    have hnames := hrow.names_eq
    rw [names, names] at hnames
    exact hnames ▸ hr.distinct
  refine ⟨⟨pairs⟩, ?_, hrow⟩
  rw [toJson, ofJson?]
  simp only [Json.members?_object, Option.bind_eq_bind, Option.bind_some, hpairs]
  rw [ofList_of_nodup hdistinct]

/-- A table of proper rows is read back as a table like it. -/
theorem Table.exists_ofJson? {table : Table} (ht : ∀ row ∈ table.rows, row.Proper) :
    ∃ other, Table.ofJson? (withIntegers double) table.toJson = some other ∧
      table.Alike other := by
  obtain ⟨rows, hrows, halike⟩ := Result.exists_mapM_map fun row hr =>
    Row.exists_ofJson? h (ht row hr)
  have hfields : table.toJson.fields? ["schema", "rows"] =
      some [some (.array (table.schema.map Column.toJson)),
        some (.array (table.rows.map Row.toJson))] := rfl
  refine ⟨⟨table.schema, rows⟩, ?_, rfl, halike⟩
  rw [ofJson?, hfields]
  simp only [Option.bind_eq_bind, Option.bind_some, Json.items?, Column.mapM_ofJson?, hrows]

/-- A proper document is read back as a document like it. -/
theorem Document.exists_ofJson? {document : Document} (hd : document.Proper) :
    ∃ other, Document.ofJson? (withIntegers double) document.toJson = some other ∧
      document.Alike other := by
  have hread : ∀ pair ∈ document.tables, ∃ other : String × Table,
      (Table.ofJson? (withIntegers double) pair.2.toJson).map (pair.1, ·) = some other ∧
        Document.PairAlike pair other := by
    intro pair hp
    obtain ⟨table, ht, halike⟩ := Table.exists_ofJson? h (hd pair hp)
    exact ⟨(pair.1, table), by rw [ht, Option.map_some], rfl, halike⟩
  obtain ⟨pairs, hpairs, halike⟩ := Result.exists_mapM_map (g := fun pair : String × Table =>
    (pair.1, pair.2.toJson)) (f := fun member => (Table.ofJson? (withIntegers double) member.2).map
    (member.1, ·)) hread
  have hincreasing : pairs.Pairwise fun a b => a.1 < b.1 := by
    have hnames : document.tables.map Prod.fst = pairs.map Prod.fst :=
      List.forall₂_eq_eq_eq ▸ List.forall₂_map_left_iff.mpr (List.forall₂_map_right_iff.mpr
        (halike.imp fun _ _ hp => hp.1))
    exact List.pairwise_map.mp (hnames ▸ List.pairwise_map.mpr document.increasing)
  refine ⟨ofList pairs, ?_, ?_⟩
  · rw [toJson, ofJson?]
    simp only [Json.members?_object, Option.bind_eq_bind, Option.bind_some, hpairs]
  · rw [Alike, tables_ofList hincreasing]
    exact halike

end

/-! ## What is written is plain -/

/-- The JSON of every value is plain. -/
theorem Value.plain_toJson (v : Value) : Plain v.toJson := by
  cases v with
  | number n =>
    rw [toJson]
    cases hn : Json.Numeral.ofNumber? n with
    | none => exact .null
    | some numeral => exact .number (Json.Numeral.wellFormed_ofNumber? hn)
  | text s => exact .string s
  | boolean b => exact .boolean b
  | null => exact .null

/-- So is that of a list of named members. -/
theorem Json.plain_object {α : Type} (name : α → String) {value : α → Json} {list : List α}
    (h : ∀ a ∈ list, Plain (value a)) :
    Plain (.object (list.map fun a => (some (name a), value a))) := by
  refine .object (fun member hm => ?_) fun member hm => ?_
  · obtain ⟨a, _, rfl⟩ := List.mem_map.mp hm
    rfl
  · obtain ⟨a, ha, rfl⟩ := List.mem_map.mp hm
    exact h a ha

/-- A list of plain values is plain. -/
theorem Json.plain_array {α : Type} {value : α → Json} {list : List α}
    (h : ∀ a ∈ list, Plain (value a)) : Plain (.array (list.map value)) := by
  refine .array fun item hm => ?_
  obtain ⟨a, ha, rfl⟩ := List.mem_map.mp hm
  exact h a ha

/-- A row is written plainly. -/
theorem Row.plain_toJson (row : Row) : Plain row.toJson :=
  Json.plain_object Prod.fst fun pair _ => pair.2.plain_toJson

/-- A column is written plainly. -/
theorem Column.plain_toJson (column : Column) : Plain column.toJson :=
  have h : ∀ pair ∈ [("field", column.name), ("type", column.type.name)],
      Plain (.string (some pair.2)) := fun _ _ => .string _
  Json.plain_object Prod.fst h

/-- A table is written plainly. -/
theorem Table.plain_toJson (table : Table) : Plain table.toJson :=
  have h : ∀ pair ∈ [("schema", Json.array (table.schema.map Column.toJson)),
      ("rows", Json.array (table.rows.map Row.toJson))], Plain pair.2 :=
    List.forall_mem_cons.mpr ⟨Json.plain_array fun column _ => column.plain_toJson,
      List.forall_mem_singleton.mpr (Json.plain_array fun row _ => row.plain_toJson)⟩
  Json.plain_object Prod.fst h

/-- A document is written plainly. -/
theorem Document.plain_toJson (document : Document) : Plain document.toJson :=
  Json.plain_object Prod.fst fun pair _ => pair.2.plain_toJson

/-! ## What is read is proper -/

section

variable {double : NumberReading}

/-- A value that was read is finite. -/
theorem Value.isFinite_of_ofJson? {value : Json} {v : Value}
    (h : Value.ofJson? (withIntegers double) value = some v) : v.isFinite = true := by
  cases value with
  | null => exact Option.some.inj h ▸ rfl
  | boolean b => exact Option.some.inj h ▸ rfl
  | number n =>
    obtain ⟨m, hm, rfl⟩ := Option.map_eq_some_iff.mp h
    exact Json.Numeral.isFinite_of_withIntegers hm
  | string s =>
    obtain ⟨text, _, rfl⟩ := Option.map_eq_some_iff.mp h
    rfl
  | array items => cases h
  | object members => cases h

/-- A row that was read is proper. -/
theorem Row.proper_of_ofJson? {value : Json} {row : Row}
    (h : Row.ofJson? (withIntegers double) value = some row) : row.Proper := by
  cases value with
  | object members =>
    obtain ⟨named, _, h⟩ := Option.bind_eq_some_iff.mp h
    obtain ⟨pairs, hpairs, h⟩ := Option.bind_eq_some_iff.mp h
    obtain rfl : Row.ofList pairs = row := Option.some.inj h
    refine proper_ofList fun pair hp => ?_
    obtain ⟨member, _, hread⟩ := Result.exists_of_mem_mapM hpairs hp
    obtain ⟨v, hv, rfl⟩ := Option.map_eq_some_iff.mp hread
    exact Value.isFinite_of_ofJson? hv
  | null => cases h
  | boolean => cases h
  | number => cases h
  | string => cases h
  | array => cases h

/-- The rows of a table that was read are proper. -/
theorem Table.proper_of_ofJson? {value : Json} {table : Table}
    (h : Table.ofJson? (withIntegers double) value = some table) :
    ∀ row ∈ table.rows, row.Proper := by
  obtain ⟨fields, _, h⟩ := Option.bind_eq_some_iff.mp h
  split at h
  next schema rows =>
    obtain ⟨columns, _, h⟩ := Option.bind_eq_some_iff.mp h
    obtain ⟨schema, _, h⟩ := Option.bind_eq_some_iff.mp h
    obtain ⟨items, _, h⟩ := Option.bind_eq_some_iff.mp h
    obtain ⟨rows, hrows, h⟩ := Option.bind_eq_some_iff.mp h
    obtain rfl := Option.some.inj h
    intro row hr
    obtain ⟨item, _, hread⟩ := Result.exists_of_mem_mapM hrows hr
    exact Row.proper_of_ofJson? hread
  next => cases h

/-- A document that was read is proper. -/
theorem Document.proper_of_ofJson? {value : Json} {document : Document}
    (h : Document.ofJson? (withIntegers double) value = some document) : document.Proper := by
  obtain ⟨members, _, h⟩ := Option.bind_eq_some_iff.mp h
  obtain ⟨pairs, hpairs, h⟩ := Option.bind_eq_some_iff.mp h
  obtain rfl : Document.ofList pairs = document := Option.some.inj h
  intro pair hp
  obtain ⟨member, _, hread⟩ := Result.exists_of_mem_mapM hpairs (mem_of_mem_ofList hp)
  obtain ⟨table, ht, rfl⟩ := Option.map_eq_some_iff.mp hread
  exact Table.proper_of_ofJson? ht

end

/-! ## Documents and their texts -/

namespace Document

variable {double : NumberReading}

/-- A proper document is read back from both of its texts as a document like it. -/
theorem exists_read? (h : double.ReadsBack) {document : Document} (hd : document.Proper)
    {text : List Char}
    (ht : text = Json.compact document.toJson ∨ text = Json.pretty document.toJson) :
    ∃ other, read? (withIntegers double) (Json.sourceOfText text) = some other ∧
      document.Alike other := by
  obtain ⟨other, hread, halike⟩ := exists_ofJson? h hd
  refine ⟨other, ?_, halike⟩
  rw [read?, Json.read?_texts document.plain_toJson ht]
  exact hread

/-- What is read from a text is proper. -/
theorem proper_of_read? {source : Json.Source} {document : Document}
    (h : read? (withIntegers double) source = some document) : document.Proper := by
  obtain ⟨value, _, hread⟩ := Option.bind_eq_some_iff.mp h
  exact proper_of_ofJson? hread

/-- Every proper document is read back from its compact and from its pretty text as
a document like it, and so is every document that was read from some text. -/
theorem read?_toJson (h : double.ReadsBack) :
    (∀ document : Document, document.Proper →
      ∀ text ∈ [Json.compact document.toJson, Json.pretty document.toJson],
        ∃ other, read? (withIntegers double) (Json.sourceOfText text) = some other ∧
          document.Alike other) ∧
    ∀ (source : Json.Source) (document : Document),
      read? (withIntegers double) source = some document →
        ∀ text ∈ [Json.compact document.toJson, Json.pretty document.toJson],
          ∃ other, read? (withIntegers double) (Json.sourceOfText text) = some other ∧
            document.Alike other := by
  have hback (document : Document) (hd : document.Proper) :
      ∀ text ∈ [Json.compact document.toJson, Json.pretty document.toJson],
        ∃ other, read? (withIntegers double) (Json.sourceOfText text) = some other ∧
          document.Alike other := by
    intro text hm
    rw [List.mem_cons, List.mem_singleton] at hm
    exact exists_read? h hd hm
  exact ⟨hback, fun source document hread => hback document (proper_of_read? hread)⟩

/-- With the exact reading: a document with a whole number beyond 2⁵³ and a column
that its table does not have, and one that was read from lists with a repeated column
and a negative zero. -/
theorem read?_toJson_of_exact :
    let number : Binary64 := .finite false ⟨4845873199050653697, by decide⟩
    let row := Row.ofList [("a", .number number), ("b", .text "\n")]
    let document := ofList [("t", ⟨[⟨"a", .numeric⟩], [row]⟩), ("s", ⟨[], []⟩)]
    let source := Json.sourceOfText "\x7b\"t\":[[],[\x7b\"a\":1,\"a\":-0\x7d]]\x7d".toList
    let found := ofList [("t", ⟨[], [.ofList [("a", .number (.neg .zero))]]⟩)]
    document.Proper ∧ read? (withIntegers Json.Numeral.exact) source = some found ∧
      (∃ other, read? (withIntegers Json.Numeral.exact)
        (Json.sourceOfText (Json.pretty document.toJson)) = some other ∧ document.Alike other) ∧
      ∃ other, read? (withIntegers Json.Numeral.exact)
        (Json.sourceOfText (Json.compact found.toJson)) = some other ∧ found.Alike other := by
  intro number row document source found
  have hproper : document.Proper := by
    intro pair hp other hr
    have hm := mem_of_mem_ofList hp
    rw [List.mem_cons, List.mem_singleton] at hm
    rcases hm with rfl | rfl
    · obtain rfl := List.mem_singleton.mp hr
      exact Row.proper_ofList (List.forall_mem_cons.mpr ⟨rfl, List.forall_mem_singleton.mpr rfl⟩)
    · cases hr
  have hread : read? (withIntegers Json.Numeral.exact) source = some found := by decide +kernel
  obtain ⟨hwritten, hagain⟩ := read?_toJson Json.Numeral.readsBack_exact
  exact ⟨hproper, hread, hwritten document hproper _ (List.mem_cons_of_mem _ List.mem_cons_self),
    hagain source found hread _ List.mem_cons_self⟩

end Document

end EmbeddedSql
