import EmbeddedSql.Table.Basic

/-!
# Documents

A document is all that is stored: the tables by their names. The names are kept
in increasing order of their characters, which is also the order of their
bytes, so that two documents with the same tables are equal.
-/

namespace EmbeddedSql

/-- The tables by name. -/
structure Document where
  /-- The tables with their names. -/
  tables : List (String × Table)
  /-- The names increase. -/
  increasing : tables.Pairwise (fun a b => a.1 < b.1)
  deriving DecidableEq

namespace Document

/-- The document without tables. -/
def empty : Document :=
  ⟨[], .nil⟩

instance : Inhabited Document := ⟨empty⟩

/-- The table under a name in a list of pairs. -/
def lookup (name : String) : List (String × Table) → Option Table
  | [] => none
  | (key, table) :: rest => if key = name then some table else lookup name rest

/-- The table with a name. -/
def find? (document : Document) (name : String) : Option Table :=
  lookup name document.tables

/-- Whether there is a table with a name. -/
def contains (document : Document) (name : String) : Bool :=
  (document.find? name).isSome

/-- The names of the tables, in increasing order. -/
def names (document : Document) : List String :=
  document.tables.map Prod.fst

/-- The pairs with a table put under a name, at its place in the order. -/
def put (name : String) (table : Table) : List (String × Table) → List (String × Table)
  | [] => [(name, table)]
  | (key, old) :: rest =>
    if name < key then (name, table) :: (key, old) :: rest
    else if name = key then (key, table) :: rest
    else (key, old) :: put name table rest

/-- Every name after putting is the put one or was there. -/
theorem mem_put {name : String} {table : Table} {pairs : List (String × Table)}
    {pair : String × Table} (h : pair ∈ put name table pairs) :
    pair.1 = name ∨ ∃ old ∈ pairs, old.1 = pair.1 := by
  induction pairs with
  | nil => simp only [put, List.mem_singleton] at h; simp [h]
  | cons first rest ih =>
    obtain ⟨key, old⟩ := first
    simp only [put] at h
    split at h
    · rcases List.mem_cons.1 h with rfl | h
      · exact .inl rfl
      · exact .inr ⟨pair, h, rfl⟩
    · split at h
      next he =>
        rcases List.mem_cons.1 h with rfl | h
        · exact .inl he.symm
        · exact .inr ⟨pair, by simp [h], rfl⟩
      · rcases List.mem_cons.1 h with rfl | h
        · exact .inr ⟨(key, old), by simp, rfl⟩
        · rcases ih h with h | ⟨p, hp, he⟩
          · exact .inl h
          · exact .inr ⟨p, by simp [hp], he⟩

/-- Putting keeps the names increasing. -/
theorem pairwise_put (name : String) (table : Table) {pairs : List (String × Table)}
    (h : pairs.Pairwise fun a b => a.1 < b.1) :
    (put name table pairs).Pairwise fun a b => a.1 < b.1 := by
  induction pairs with
  | nil => simp [put]
  | cons first rest ih =>
    obtain ⟨key, old⟩ := first
    rw [List.pairwise_cons] at h
    simp only [put]
    split
    next hlt =>
      rw [List.pairwise_cons, List.pairwise_cons]
      refine ⟨fun b hb => ?_, h⟩
      rcases List.mem_cons.1 hb with rfl | hb
      · exact hlt
      · exact String.lt_trans hlt (h.1 b hb)
    next hlt =>
      split
      · exact List.pairwise_cons.2 ⟨h.1, h.2⟩
      next hne =>
        refine List.pairwise_cons.2 ⟨fun b hb => ?_, ih h.2⟩
        rcases mem_put hb with hb | ⟨old', ho, he⟩
        · have hle : key ≤ name := String.not_lt.1 hlt
          rw [hb]
          exact Decidable.byContradiction fun hn =>
            hne (String.le_antisymm (String.not_lt.1 hn) hle)
        · exact he ▸ h.1 old' ho

/-- The document with a table under a name, in place of one that is there. -/
def insert (document : Document) (name : String) (table : Table) : Document :=
  ⟨put name table document.tables, pairwise_put name table document.increasing⟩

/-- The document without the table of a name. -/
def erase (document : Document) (name : String) : Document :=
  ⟨document.tables.filter fun pair => pair.1 != name,
    document.increasing.sublist List.filter_sublist⟩

/-- The document built from pairs by inserting one after another. -/
def ofList (pairs : List (String × Table)) : Document :=
  pairs.foldl (fun document pair => document.insert pair.1 pair.2) empty

end Document

end EmbeddedSql
