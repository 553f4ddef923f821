import EmbeddedSql.Proofs.Sql.Admission
import EmbeddedSql.Proofs.Table.Rows

/-!
# The rows that a change gives back

A statement that changes a table gives back rows as a selection does. A deletion gives back
what selecting the same columns under the same condition would have given before it, an
update the rows in the places of those that it chose, as they are afterwards, and an
insertion the rows at the end of the table. Each of them has exactly the wanted columns, each
once, with the value that is stored. If no columns are wanted nothing is given back, and the
table is changed alike.
-/

namespace EmbeddedSql

namespace Sql.Validation

/-- A deletion is checked as the selection of the columns that it gives back is. -/
theorem select_of_delete {table : String} {schema : List Column} {s : Delete}
    (h : delete table schema s = .ok ()) :
    select table schema ⟨s.table, s.returning, s.conditions⟩ = .ok () := by
  obtain ⟨_, hconditions, hfields⟩ := Result.bind_eq_ok_iff.mp h
  exact Result.bind_eq_ok_iff.mpr ⟨(), hfields, hconditions⟩

end Sql.Validation

namespace Table

/-- The columns that a valid choice names are among those of the table. -/
theorem mem_columnNames_of_fields {table : Table} {name : String} {choice : Sql.Fields}
    (h : Sql.Validation.fields name table.schema choice = .ok ()) :
    ∀ column ∈ choice.names, column ∈ table.columnNames := by
  intro column hcolumn
  obtain ⟨c, hc, rfl⟩ := Sql.Statement.known_of_fields h column hcolumn
  exact List.mem_map_of_mem hc

/-- The rows of a table that stand in the places of the rows that a condition chose before. -/
def inPlacesOf (before after : Table) (conditions : Sql.Conditions) : List Row :=
  ((before.rows.zip after.rows).filter fun pair => conditions.accept pair.1).map Prod.snd

/-- In the places of the rows that are changed stand the changed rows. -/
theorem map_snd_filter_zip (p : Row → Bool) (change : Row → Row) (rows : List Row) :
    ((rows.zip (rows.map fun row => if p row then change row else row)).filter
      fun pair => p pair.1).map Prod.snd = (rows.filter p).map change := by
  induction rows with
  | nil => rfl
  | cons row rest ih =>
    rw [List.map_cons, List.zip_cons_cons, List.filter_cons, List.filter_cons]
    split
    · rw [List.map_cons, List.map_cons, ih]
    · exact ih

/-- In the places of the rows that an update chose stand these rows with the new values. -/
theorem inPlacesOf_update (table : Table) (s : Sql.Update) :
    table.inPlacesOf (table.update s).table s.conditions =
      (table.rows.filter s.conditions.accept).map (assign s.assignments) :=
  map_snd_filter_zip s.conditions.accept (assign s.assignments) table.rows

/-- The rows in the places of chosen rows are rows of the table. -/
theorem mem_of_mem_inPlacesOf {before after : Table} {conditions : Sql.Conditions} {row : Row}
    (h : row ∈ before.inPlacesOf after conditions) : row ∈ after.rows := by
  obtain ⟨pair, hpair, rfl⟩ := List.mem_map.mp h
  exact (List.of_mem_zip (List.mem_of_mem_filter hpair)).2

end Table

/-- A change gives back rows of a table if it gives back what is chosen of each of them: a row
with the chosen columns and the values that are stored, for every row that the change was
about. -/
structure Mutation.Gives (mutation : Mutation) (schema : List Column) (choice : Sql.Fields)
    (rows : List Row) : Prop where
  /-- What is chosen of the rows is given back. -/
  returned : mutation.returned = rows.map choice.select
  /-- Every row that is given back shows the chosen columns. -/
  shown : List.Forall₂ (Row.Shows (choice.columns schema)) rows mutation.returned
  /-- There are as many as the change counts. -/
  counted : mutation.returned.length = mutation.affected

namespace Table

variable {table : Table} {name : String}

/-- A projection of rows that have the columns of the table gives them back. -/
theorem gives_of_project {mutation : Mutation} {choice : Sql.Fields} {rows : List Row}
    (hchoice : Sql.Validation.fields name table.schema choice = .ok ()) (hne : choice ≠ .empty)
    (hrows : ∀ row ∈ rows, row.names = table.columnNames)
    (hreturned : mutation.returned = choice.project rows)
    (haffected : mutation.affected = rows.length) :
    mutation.Gives table.schema choice rows := by
  have hfull : choice.isEmpty = false := by
    unfold Sql.Fields.isEmpty
    split
    · exact absurd rfl hne
    · rfl
  have hmap : mutation.returned = rows.map choice.select := by
    rw [hreturned, Sql.Fields.project, hfull]
    rfl
  refine ⟨hmap, ?_, ?_⟩
  · rw [hmap, List.forall₂_map_right_iff, List.forall₂_same]
    exact fun row hrow =>
      Sql.Fields.shows_select (hrows row hrow) (mem_columnNames_of_fields hchoice)
  · rw [hmap, List.length_map, haffected]

/-- A deletion gives back what is chosen of the rows that it removes. -/
theorem gives_delete (h : table.Regular) {s : Sql.Delete}
    (hv : (Sql.Statement.delete s).validate name table.schema = .ok ())
    (hne : s.returning ≠ .empty) :
    (table.delete s).Gives table.schema s.returning (table.rows.filter s.conditions.accept) := by
  obtain ⟨_, _, hfields⟩ := Result.bind_eq_ok_iff.mp hv
  exact gives_of_project hfields hne (fun row hrow => h.rows row (List.mem_of_mem_filter hrow)) rfl
    rfl

/-- An update gives back what is chosen of the rows that it changed, as they are afterwards. -/
theorem gives_update (h : table.Regular) {s : Sql.Update}
    (hv : (Sql.Statement.update s).validate name table.schema = .ok ())
    (hne : s.returning ≠ .empty) :
    (table.update s).Gives table.schema s.returning
      (table.inPlacesOf (table.update s).table s.conditions) := by
  have hafter := (follows_update h hv).regular
  obtain ⟨_, _, hrest⟩ := Result.bind_eq_ok_iff.mp hv
  obtain ⟨_, _, hrest⟩ := Result.bind_eq_ok_iff.mp hrest
  obtain ⟨_, _, hfields⟩ := Result.bind_eq_ok_iff.mp hrest
  refine gives_of_project hfields hne (fun row hrow => ?_) ?_ ?_
  · exact hafter.rows row (mem_of_mem_inPlacesOf hrow)
  · rw [inPlacesOf_update]
    rfl
  · rw [inPlacesOf_update]
    rfl

/-- The rows behind the old ones are those that an insertion adds. -/
theorem drop_insert (table : Table) (s : Sql.Insert) :
    (table.insert s).table.rows.drop table.rows.length =
      s.tuples.map (table.rowOfTuple s.fields) :=
  List.drop_left

/-- An insertion gives back what is chosen of the rows at the end of the table. -/
theorem gives_insert (h : table.Regular) {s : Sql.Insert}
    (hv : (Sql.Statement.insert s).validate name table.schema = .ok ())
    (hne : s.returning ≠ .empty) :
    (table.insert s).Gives table.schema s.returning
      ((table.insert s).table.rows.drop table.rows.length) := by
  have hafter := (follows_insert h hv).regular
  obtain ⟨_, _, hrest⟩ := Result.bind_eq_ok_iff.mp hv
  obtain ⟨_, _, hfields⟩ := Result.bind_eq_ok_iff.mp hrest
  refine gives_of_project hfields hne (fun row hrow => ?_) ?_ ?_
  · exact hafter.rows row (List.mem_of_mem_drop hrow)
  · rw [drop_insert]
    rfl
  · rw [drop_insert]
    rfl

/-- Every valid change of a table whose rows have its columns gives back rows as a selection
does, and makes the same change of the table when it gives back none. -/
theorem returning_agrees (h : table.Regular) (name : String) :
    (∀ s : Sql.Delete, (Sql.Statement.delete s).validate name table.schema = .ok () →
      (s.returning ≠ .empty →
        (Sql.Statement.select ⟨s.table, s.returning, s.conditions⟩).validate name table.schema =
            .ok () ∧
          (table.delete s).returned = table.select ⟨s.table, s.returning, s.conditions⟩ ∧
          (table.delete s).Gives table.schema s.returning
            (table.rows.filter s.conditions.accept)) ∧
        table.delete { s with returning := .empty } =
          ⟨(table.delete s).table, [], (table.delete s).affected⟩) ∧
    (∀ s : Sql.Update, (Sql.Statement.update s).validate name table.schema = .ok () →
      (s.returning ≠ .empty →
        (table.update s).table.rows.length = table.rows.length ∧
          (table.update s).Gives table.schema s.returning
            (table.inPlacesOf (table.update s).table s.conditions)) ∧
        table.update { s with returning := .empty } =
          ⟨(table.update s).table, [], (table.update s).affected⟩) ∧
    (∀ s : Sql.Insert, (Sql.Statement.insert s).validate name table.schema = .ok () →
      (s.returning ≠ .empty →
        (table.insert s).table.rows.take table.rows.length = table.rows ∧
          (table.insert s).Gives table.schema s.returning
            ((table.insert s).table.rows.drop table.rows.length)) ∧
        table.insert { s with returning := .empty } =
          ⟨(table.insert s).table, [], (table.insert s).affected⟩) := by
  refine ⟨fun s hv => ⟨fun hne => ?_, rfl⟩, fun s hv => ⟨fun hne => ?_, rfl⟩,
    fun s hv => ⟨fun hne => ?_, rfl⟩⟩
  · have hgives := gives_delete h hv hne
    exact ⟨Sql.Validation.select_of_delete hv, hgives.returned, hgives⟩
  · exact ⟨List.length_map _, gives_update h hv hne⟩
  · exact ⟨List.take_left, gives_insert h hv hne⟩

/-- A repeated column that is wanted back, an update of the column that it tests, and an
insertion that wants all columns back. -/
theorem returning_agrees_of_text :
    let table : Table := ⟨[⟨"id", .text⟩, ⟨"on", .boolean⟩],
      [⟨[("id", .text "a"), ("on", .boolean true)]⟩, ⟨[("id", .text "b"), ("on", .null)]⟩]⟩
    let rest : Sql.Conditions := [[⟨"on", .notEqual, .boolean true⟩]]
    let d : Sql.Delete := ⟨"t", rest, .named ["on", "id", "on"]⟩
    let u : Sql.Update := ⟨"t", [⟨"on", .boolean true⟩], rest, .named ["on"]⟩
    let i : Sql.Insert := ⟨"t", .named ["on"], [[.boolean false]], .all⟩
    (table.Regular ∧ (Sql.Statement.delete d).validate "t" table.schema = .ok () ∧
      (Sql.Statement.update u).validate "t" table.schema = .ok () ∧
      (Sql.Statement.insert i).validate "t" table.schema = .ok ()) ∧
    table.select ⟨"t", .named ["on", "id", "on"], rest⟩ = [⟨[("on", .null), ("id", .text "b")]⟩] ∧
      (table.delete d).returned = table.select ⟨"t", .named ["on", "id", "on"], rest⟩ ∧
      (table.update u).Gives table.schema (.named ["on"])
        [⟨[("id", .text "b"), ("on", .boolean true)]⟩] ∧
      (table.insert i).Gives table.schema .all [⟨[("id", .null), ("on", .boolean false)]⟩] := by
  intro table rest d u i
  have hregular : table.Regular := ⟨by decide, by decide⟩
  obtain ⟨hdelete, hupdate, hinsert⟩ := returning_agrees hregular "t"
  have hd := (hdelete d rfl).1 (by decide)
  have hu := (hupdate u rfl).1 (by decide)
  have hi := (hinsert i rfl).1 (by decide)
  exact ⟨⟨hregular, rfl, rfl, rfl⟩, by decide, hd.2.1, hu.2, hi.2⟩

end Table

end EmbeddedSql
