import EmbeddedSql.Proofs.Table.Changes
import EmbeddedSql.Session.Effect

/-!
# When a statement has an effect

A statement about the rows of a table has an effect if the table is there and the
statement passes validation. The effect is to store nothing if there is no row that the
statement adds, changes or removes.
-/

namespace EmbeddedSql.Sql.Statement

variable {statement : Statement} {document : Document}

/-- A statement about the rows of a table finds the table and passes validation. -/
theorem exists_table_of_ok (statement : Statement) {f : Table → Effect} {effect : Effect}
    (h : (do
      let table ← tableIn document statement.table
      (statement.validate statement.table table.schema).mapError Error.validation
      Except.ok (f table)) = .ok effect) :
    ∃ table, document.find? statement.table = some table ∧
      statement.validate statement.table table.schema = .ok () ∧ f table = effect := by
  obtain ⟨table, ht, hrest⟩ := Result.bind_eq_ok_iff.mp h
  obtain ⟨_, hv, hrest⟩ := Result.bind_eq_ok_iff.mp hrest
  refine ⟨table, ?_, Result.mapError_eq_ok_iff.mp hv, Except.ok.inj hrest⟩
  rw [tableIn] at ht
  split at ht
  next found hf => rw [hf, Except.ok.inj ht]
  next => cases ht

/-! ## Statements with nothing to change -/

/-- A statement has nothing to change in a document: it only reads rows, or it changes
or removes rows and there is none that it chooses. -/
def Idle (document : Document) : Statement → Prop
  | .select _ => True
  | .update s => ∀ table, document.find? s.table = some table →
    ∀ row ∈ table.rows, s.conditions.accept row = false
  | .delete s => ∀ table, document.find? s.table = some table →
    ∀ row ∈ table.rows, s.conditions.accept row = false
  | _ => False

/-- What a statement about rows makes of its table. -/
def tableAfter (table : Table) : Statement → Table
  | .insert s => (table.insert s).table
  | .update s => (table.update s).table
  | .delete s => (table.delete s).table
  | _ => table

/-- Nothing is to be stored if there is nothing to change. -/
theorem Idle.store_eq_none (h : statement.Idle document) {effect : Effect}
    (he : statement.effect document = .ok effect) : effect.store = none := by
  cases statement with
  | select s =>
    obtain ⟨table, _, _, rfl⟩ := exists_table_of_ok (.select s) he
    rfl
  | update s =>
    obtain ⟨table, hf, _, rfl⟩ := exists_table_of_ok (.update s) he
    have haffected := (Table.update_of_reject (h table hf)).2
    simp [effectOf, haffected]
  | delete s =>
    obtain ⟨table, hf, _, rfl⟩ := exists_table_of_ok (.delete s) he
    have haffected := (Table.delete_of_reject (h table hf)).2
    simp [effectOf, haffected]
  | insert s => cases h
  | create s => cases h
  | drop s => cases h

/-- The table is what it was. -/
theorem Idle.tableAfter_eq (h : statement.Idle document) {table : Table}
    (hf : document.find? statement.table = some table) : statement.tableAfter table = table := by
  cases statement with
  | select s => rfl
  | update s => exact (Table.update_of_reject (h table hf)).1
  | delete s => exact (Table.delete_of_reject (h table hf)).1
  | insert s => cases h
  | create s => cases h
  | drop s => cases h

end EmbeddedSql.Sql.Statement
