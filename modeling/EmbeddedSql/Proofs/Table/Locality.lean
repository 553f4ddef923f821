import EmbeddedSql.Proofs.Table.Chronicle
import EmbeddedSql.Proofs.Table.Likeness

/-!
# A statement looks at its table only

Two documents that have the same table under a name are the same to a statement on this
table: it fails alike, gives back the same rows, and leaves the same table. Documents with
the same tables under all names are equal.
-/

namespace EmbeddedSql

namespace Document

/-- A table that is found is in the list. -/
theorem mem_of_lookup {name : String} {table : Table} {pairs : List (String × Table)}
    (h : lookup name pairs = some table) : (name, table) ∈ pairs := by
  induction pairs with
  | nil => cases h
  | cons pair rest ih =>
    obtain ⟨key, old⟩ := pair
    rw [lookup] at h
    split at h
    next hk =>
      obtain rfl := Option.some.inj h
      exact hk ▸ List.mem_cons_self
    next => exact List.mem_cons_of_mem _ (ih h)

/-- In increasing order a table that is in the list is found. -/
theorem lookup_of_mem {name : String} {table : Table} {pairs : List (String × Table)}
    (hp : pairs.Pairwise fun a b => a.1 < b.1) (h : (name, table) ∈ pairs) :
    lookup name pairs = some table := by
  induction pairs with
  | nil => cases h
  | cons pair rest ih =>
    obtain ⟨key, old⟩ := pair
    obtain ⟨hfirst, hrest⟩ := List.pairwise_cons.mp hp
    rw [lookup]
    rcases List.mem_cons.mp h with he | hm
    · obtain ⟨rfl, rfl⟩ := Prod.mk.inj he
      exact if_pos rfl
    · have hne : key ≠ name := fun he => String.lt_irrefl key (he ▸ hfirst _ hm)
      rw [if_neg hne]
      exact ih hrest hm

/-- Documents with the same tables under all names are equal. -/
theorem ext_find? {a b : Document} (h : ∀ name, a.find? name = b.find? name) : a = b := by
  have hmem (pair : String × Table) : pair ∈ a.tables ↔ pair ∈ b.tables := by
    obtain ⟨name, table⟩ := pair
    have hname := h name
    rw [find?, find?] at hname
    constructor
    · intro hm
      exact mem_of_lookup (hname ▸ lookup_of_mem a.increasing hm)
    · intro hm
      exact mem_of_lookup (hname.trans (lookup_of_mem b.increasing hm))
  have hne {p q : String × Table} (hlt : p.1 < q.1) : p ≠ q := by
    rintro rfl
    exact String.lt_irrefl p.1 hlt
  have hnodup {document : Document} : document.tables.Nodup := document.increasing.imp hne
  have hperm := (List.perm_ext_iff_of_nodup hnodup hnodup).mpr hmem
  have htables : a.tables = b.tables :=
    hperm.eq_of_pairwise (fun p q _ _ hpq hqp => absurd hqp (String.lt_asymm hpq)) a.increasing
      b.increasing
  obtain ⟨tables, increasing⟩ := a
  obtain ⟨others, increasing'⟩ := b
  obtain rfl : tables = others := htables
  rfl

end Document

/-- Two effects are the same on a table: the same rows are given back, and the documents
to be stored, if there are any, have the same table under its name. -/
structure Effect.Agrees (name : String) (x y : Effect) : Prop where
  /-- The rows given back. -/
  rows : x.rows = y.rows
  /-- The documents to be stored. -/
  store : Option.Rel (fun a b : Document => a.find? name = b.find? name) x.store y.store

namespace Sql.Statement

variable {a b : Document}

/-- A change to a table has the same effect on that table in any two documents. -/
theorem effectOf_agrees (a b : Document) (name : String) (mutation : Mutation) :
    (effectOf a name mutation).Agrees name (effectOf b name mutation) where
  rows := rfl
  store := by
    rw [effectOf, effectOf]
    split
    · exact .some (by rw [Document.find?_insert, Document.find?_insert, if_pos rfl, if_pos rfl])
    · exact .none

/-- Whatever is done with the table that is found agrees. -/
theorem bind_tableIn_agrees {name : String} (h : a.find? name = b.find? name)
    (statement : Statement) {f g : Table → Effect}
    (hfg : ∀ table, (f table).Agrees name (g table)) :
    Result.Alike Eq (Effect.Agrees name)
      (do
        let table ← tableIn a name
        (statement.validate name table.schema).mapError Error.validation
        .ok (f table))
      (do
        let table ← tableIn b name
        (statement.validate name table.schema).mapError Error.validation
        .ok (g table)) := by
  rw [tableIn, tableIn, h]
  cases b.find? name with
  | none => exact .error rfl
  | some table =>
    rw [Result.ok_bind, Result.ok_bind]
    cases statement.validate name table.schema with
    | error e => exact .error rfl
    | ok => exact .ok (hfg table)

/-- On documents with the same table under its name a statement has the same effect on it. -/
theorem effect_agrees {statement : Statement}
    (h : a.find? statement.table = b.find? statement.table) :
    Result.Alike Eq (Effect.Agrees statement.table) (statement.effect a) (statement.effect b) := by
  have hcontains : a.contains statement.table = b.contains statement.table := by
    rw [Document.contains, Document.contains, h]
  cases statement with
  | select s => exact bind_tableIn_agrees h (.select s) fun table => ⟨rfl, .none⟩
  | insert s =>
    exact bind_tableIn_agrees h (.insert s) fun table =>
      effectOf_agrees a b s.table (table.insert s)
  | update s =>
    exact bind_tableIn_agrees h (.update s) fun table =>
      effectOf_agrees a b s.table (table.update s)
  | delete s =>
    exact bind_tableIn_agrees h (.delete s) fun table =>
      effectOf_agrees a b s.table (table.delete s)
  | create s =>
    have hcontains : a.contains s.table = b.contains s.table := hcontains
    simp only [effect, createIn, hcontains]
    split
    · split
      · exact .ok ⟨rfl, .none⟩
      · exact .error rfl
    · refine .ok ⟨rfl, .some ?_⟩
      rw [table, Document.find?_insert, Document.find?_insert, if_pos rfl, if_pos rfl]
  | drop s =>
    have hcontains : a.contains s.table = b.contains s.table := hcontains
    simp only [effect, dropIn, hcontains]
    split
    · refine .ok ⟨rfl, .some ?_⟩
      rw [table, Document.find?_erase, Document.find?_erase, if_pos rfl, if_pos rfl]
    · exact .error rfl

end Sql.Statement

end EmbeddedSql
