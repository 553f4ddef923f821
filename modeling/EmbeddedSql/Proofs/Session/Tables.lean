import EmbeddedSql.Proofs.Session.History
import EmbeddedSql.Proofs.Table.Chronicle

/-!
# What a statement leaves of each table

A statement that stores a document has put one table in place or taken one out, and all
other tables are as they were. An insertion appends its rows to those of its table. So
where a table is only inserted into and selected from, its rows stay and new ones come
behind them.
-/

namespace EmbeddedSql

namespace Document

variable {document changed : Document} {name : String}

/-- A document with a table put in place contains this one and those that it contained. -/
theorem contains_insert (document : Document) (table : String) (value : Table) (name : String) :
    (document.insert table value).contains name =
      (decide (table = name) || document.contains name) := by
  rw [contains, find?_insert, contains]
  by_cases h : table = name
  · simp [h]
  · simp [h]

/-- A document without a table contains the others that it contained. -/
theorem contains_erase (document : Document) (table name : String) :
    (document.erase table).contains name = (!decide (table = name) && document.contains name) := by
  rw [contains, find?_erase, contains]
  by_cases h : table = name
  · simp [h]
  · simp [h]

/-- What a statement has stored: a table in place of the one it is about, a new table, or
no table any more. -/
inductive Stores (document : Document) : Sql.Statement → Document → Prop where
  /-- The rows of a table were changed. -/
  | rows {statement : Sql.Statement} (table : Table)
    (there : document.contains statement.table = true)
    (create : ∀ create, statement ≠ .create create) (drop : ∀ drop, statement ≠ .drop drop) :
    Stores document statement (document.insert statement.table table)
  /-- A table was made. -/
  | created (create : Sql.Create) (missing : document.contains create.table = false) :
    Stores document (.create create) (document.insert create.table (.ofSchema create.columns))
  /-- A table was removed. -/
  | dropped (drop : Sql.Drop) (there : document.contains drop.table = true) :
    Stores document (.drop drop) (document.erase drop.table)

/-- A change to the rows of a table that is stored puts that table in place. -/
theorem stores_of_effectOf {statement : Sql.Statement} {table : Table} {mutation : Mutation}
    {rows : List Row} (hf : document.find? statement.table = some table)
    (h : Sql.Statement.effectOf document statement.table mutation = ⟨rows, some changed⟩)
    (create : ∀ create, statement ≠ .create create) (drop : ∀ drop, statement ≠ .drop drop) :
    document.Stores statement changed := by
  have hthere : document.contains statement.table = true := by rw [contains, hf]; rfl
  have hstore := congrArg Effect.store h
  simp only [Sql.Statement.effectOf] at hstore
  split at hstore
  · cases hstore
    exact .rows mutation.table hthere create drop
  · cases hstore

/-- A statement that has something to store changes one table. -/
theorem stores_of_effect {statement : Sql.Statement} {rows : List Row}
    (h : statement.effect document = .ok ⟨rows, some changed⟩) :
    document.Stores statement changed := by
  cases statement with
  | select s =>
    obtain ⟨table, _, _, he⟩ := Sql.Statement.exists_table_of_ok (.select s) h
    cases he
  | insert s =>
    obtain ⟨table, hf, _, he⟩ := Sql.Statement.exists_table_of_ok (.insert s) h
    exact stores_of_effectOf hf he nofun nofun
  | update s =>
    obtain ⟨table, hf, _, he⟩ := Sql.Statement.exists_table_of_ok (.update s) h
    exact stores_of_effectOf hf he nofun nofun
  | delete s =>
    obtain ⟨table, hf, _, he⟩ := Sql.Statement.exists_table_of_ok (.delete s) h
    exact stores_of_effectOf hf he nofun nofun
  | create s =>
    simp only [Sql.Statement.effect, Sql.Statement.createIn] at h
    split at h
    · split at h
      · cases h
      · cases h
    next hc =>
      cases h
      exact .created s (Bool.eq_false_iff.mpr hc)
  | drop s =>
    simp only [Sql.Statement.effect, Sql.Statement.dropIn] at h
    split at h
    next hc =>
      cases h
      exact .dropped s hc
    next => cases h

/-- Every other table is as it was. -/
theorem Stores.find?_of_ne {statement : Sql.Statement} (h : document.Stores statement changed)
    (hne : statement.table ≠ name) : changed.find? name = document.find? name := by
  cases h with
  | rows table => rw [find?_insert, if_neg hne]
  | created create =>
    have hne : create.table ≠ name := hne
    rw [find?_insert, if_neg hne]
  | dropped drop =>
    have hne : drop.table ≠ name := hne
    rw [find?_erase, if_neg hne]

/-- A table that was there is there, unless it was removed. -/
theorem Stores.contains_or_drop {statement : Sql.Statement} (h : document.Stores statement changed)
    (hc : document.contains name = true) :
    changed.contains name = true ∨ ∃ drop, statement = .drop drop ∧ drop.table = name := by
  cases h with
  | rows table there create drop =>
    rw [contains_insert, hc, Bool.or_true]
    exact .inl rfl
  | created create missing =>
    rw [contains_insert, hc, Bool.or_true]
    exact .inl rfl
  | dropped drop there =>
    by_cases hname : drop.table = name
    · exact .inr ⟨drop, rfl, hname⟩
    · rw [contains_erase, hc, decide_eq_false hname]
      exact .inl rfl

/-- A table that is there was there, unless it was made. -/
theorem Stores.contains_or_create {statement : Sql.Statement}
    (h : document.Stores statement changed) (hc : changed.contains name = true) :
    document.contains name = true ∨ ∃ create, statement = .create create ∧ create.table = name := by
  cases h with
  | rows table there create drop =>
    rw [contains_insert, Bool.or_eq_true] at hc
    rcases hc with hname | hc
    · exact .inl (of_decide_eq_true hname ▸ there)
    · exact .inl hc
  | created create missing =>
    rw [contains_insert, Bool.or_eq_true] at hc
    rcases hc with hname | hc
    · exact .inr ⟨create, rfl, of_decide_eq_true hname⟩
    · exact .inl hc
  | dropped drop there =>
    rw [contains_erase, Bool.and_eq_true] at hc
    exact .inl hc.2

/-! ## Rows that stay -/

/-- A table has kept its columns and its rows, and got rows behind them. -/
def Grows (name : String) (document changed : Document) : Prop :=
  ∀ table, document.find? name = some table →
    ∃ rows, changed.find? name = some ⟨table.schema, table.rows ++ rows⟩

/-- A table has kept its rows in the same document. -/
theorem Grows.refl (name : String) (document : Document) : document.Grows name document :=
  fun table hf => ⟨[], by rw [hf, List.append_nil]⟩

/-- A table that has kept its rows twice has kept them. -/
theorem Grows.trans {last : Document} (h : Grows name document changed)
    (hl : Grows name changed last) : Grows name document last := by
  intro table hf
  obtain ⟨rows, hchanged⟩ := h table hf
  obtain ⟨more, hlast⟩ := hl _ hchanged
  exact ⟨rows ++ more, by rw [hlast, List.append_assoc]⟩

end Document

namespace Sql.Statement

/-- An insertion appends its rows. -/
theorem find?_of_insert {insert : Insert} {document : Document} {effect : Effect}
    (h : (Statement.insert insert).effect document = .ok effect) :
    ∃ table, document.find? insert.table = some table ∧
      (effect.store.getD document).find? insert.table =
        some ⟨table.schema, table.rows ++ insert.tuples.map (table.rowOfTuple insert.fields)⟩ := by
  obtain ⟨table, hf, _, rfl⟩ := exists_table_of_ok (.insert insert) h
  refine ⟨table, hf, ?_⟩
  simp only [effectOf, Table.insert, List.length_map]
  split
  · rw [Option.getD_some, Document.find?_insert, if_pos rfl]
  next hnone =>
    have hnothing : insert.tuples = [] := List.length_eq_zero_iff.mp (by omega)
    rw [Option.getD_none, hnothing, List.map_nil, List.append_nil]
    exact hf

/-- No error is excused that the statement does not say so. -/
theorem excuse_of_not_mayMiss (statement : Statement) (h : statement.mayMiss = false)
    (result : Except Error (List Row)) : statement.excuse result = result := by
  unfold excuse
  split
  · rw [if_neg (by simp [h])]
  · rfl

/-- Whether a statement leaves the rows of its table where they are. -/
def Appends : Statement → Prop
  | .insert _ => True
  | .select _ => True
  | _ => False

end Sql.Statement

namespace Session

open Sql

/-- Whether a call leaves the rows of a table where they are. -/
def Call.AppendsTo (call : Call) (name : String) : Prop :=
  ∀ statement, call = .execute statement → statement.table = name → statement.Appends

/-- A call that only inserts into a table and selects from it lets the table grow. -/
theorem Call.grows_outcome {call : Call} {name : String} (hc : call.AppendsTo name)
    (document : Document) : Document.Grows name document (call.outcome document).1 := by
  cases call with
  | tableNames => exact .refl name document
  | schema table => exact .refl name document
  | execute statement =>
    simp only [Call.outcome]
    split
    · exact .refl name document
    · split
      · exact .refl name document
      next effect he =>
        simp only
        by_cases hname : statement.table = name
        · have happends := hc statement rfl hname
          cases statement with
          | select select =>
            obtain ⟨table, _, _, rfl⟩ := Statement.exists_table_of_ok (.select select) he
            exact .refl name document
          | insert insert =>
            obtain ⟨table, hf, hafter⟩ := Statement.find?_of_insert he
            have hname : insert.table = name := hname
            rw [hname] at hf hafter
            intro found hfound
            rw [hf, Option.some.injEq] at hfound
            rw [← hfound]
            exact ⟨_, hafter⟩
          | update update => cases happends
          | delete delete => cases happends
          | create create => cases happends
          | drop drop => cases happends
        · obtain ⟨rows, wanted⟩ := effect
          cases wanted with
          | none => exact .refl name document
          | some changed =>
            -- A statement on another table leaves this one where it is.
            have hsame := (Document.stores_of_effect he).find?_of_ne hname
            intro table hf
            exact ⟨[], by rw [Option.getD_some, hsame, hf, List.append_nil]⟩

/-- Calls that only insert into a table and select from it let the table grow. -/
theorem Chained.grows {first last : Document} {record : List Entry} (h : Chained first record last)
    {name : String} (hc : ∀ entry ∈ record, entry.call.AppendsTo name) :
    Document.Grows name first last := by
  induction h with
  | nil document => exact .refl name document
  | @cons entry rest last _ ih =>
    have hentry := Call.grows_outcome (hc entry List.mem_cons_self) entry.before
    exact hentry.trans (ih fun other ho => hc other (List.mem_cons_of_mem _ ho))

/-- What a record leads to in front of an entry and behind it. -/
theorem Chained.split {first last : Document} {entry : Entry} {front back : List Entry}
    (h : Chained first (front ++ entry :: back) last) :
    Chained first front entry.before ∧ Chained entry.after back last := by
  induction front generalizing first with
  | nil =>
    obtain ⟨hbefore, hback⟩ := h.head
    rw [hbefore]
    exact ⟨.nil first, hback⟩
  | cons next rest ih =>
    obtain ⟨hbefore, hrest⟩ := Chained.head h
    obtain ⟨hfront, hback⟩ := ih hrest
    rw [← hbefore]
    exact ⟨.cons hfront, hback⟩

/-- An insertion that was successful has appended its rows. -/
theorem Entry.find?_of_insert {entry : Entry} {insert : Insert} {reply : Reply}
    (hc : entry.call = .execute (.insert insert)) (hr : entry.result = .ok reply) :
    ∃ table, entry.before.find? insert.table = some table ∧
      entry.after.find? insert.table =
        some ⟨table.schema, table.rows ++ insert.tuples.map (table.rowOfTuple insert.fields)⟩ := by
  rw [Entry.result, hc] at hr
  rw [Entry.after, hc]
  simp only [Call.outcome, Statement.precheck] at hr ⊢
  cases he : (Statement.insert insert).effect entry.before with
  | error e =>
    have hexcuse := Statement.excuse_of_not_mayMiss (.insert insert) rfl (.error e)
    simp only [he, System.resultOf, hexcuse] at hr
    cases hr
  | ok effect => exact Statement.find?_of_insert he

/-- The rows of two insertions stand in the order in which the insertions took effect if
nobody has changed or removed rows since the first. -/
theorem exists_rows_of_inserts {entry other : Entry} {insert insert' : Insert}
    {reply reply' : Reply} (hc : entry.call = .execute (.insert insert))
    (hr : entry.result = .ok reply) (hc' : other.call = .execute (.insert insert'))
    (hr' : other.result = .ok reply') (htable : insert'.table = insert.table)
    {between behind : List Entry} {last : Document}
    (hb : Chained entry.after between other.before) (hl : Chained other.after behind last)
    (hbetween : ∀ next ∈ between, next.call.AppendsTo insert.table)
    (hbehind : ∀ next ∈ behind, next.call.AppendsTo insert.table) :
    ∃ table before between behind, last.find? insert.table = some table ∧
      table.rows = before ++ insert.tuples.map (table.rowOfTuple insert.fields) ++ between ++
        insert'.tuples.map (table.rowOfTuple insert'.fields) ++ behind := by
  obtain ⟨found, _, hfirst⟩ := Entry.find?_of_insert hc hr
  obtain ⟨grown, hgrown⟩ := hb.grows hbetween _ hfirst
  obtain ⟨found', hfound', hsecond⟩ := Entry.find?_of_insert hc' hr'
  rw [htable] at hfound' hsecond
  rw [hgrown, Option.some.injEq] at hfound'
  obtain ⟨more, hlast⟩ := hl.grows hbehind _ hsecond
  rw [← hfound'] at hlast
  -- The rows that a tuple becomes depend on the columns only.
  exact ⟨_, found.rows, grown, more, hlast, rfl⟩

end Session

end EmbeddedSql
