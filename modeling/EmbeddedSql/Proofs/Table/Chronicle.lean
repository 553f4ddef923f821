import EmbeddedSql.Proofs.Session.Effect
import Mathlib.Data.List.Induction

/-!
# Tables from the statements that made them

Of the statements that were run only those since the last creation of a table
matter for it: the creation gives the columns, and the changes of rows since then
give the rows, beginning with none. A creation of a table that is there and a
removal of one that is not are for nothing, and so are queries.
-/

namespace EmbeddedSql

/-! ## What is found in a document -/

namespace Document

/-- What is put under a name is found there, and under other names what was found before. -/
theorem lookup_put (name other : String) (table : Table) (pairs : List (String × Table)) :
    lookup other (put name table pairs) =
      if name = other then some table else lookup other pairs := by
  induction pairs with
  | nil => rfl
  | cons pair rest ih =>
    obtain ⟨key, old⟩ := pair
    rw [put]
    split
    · rw [lookup]
    · split
      next he =>
        rw [lookup, lookup, ← he]
        split <;> rfl
      next hne =>
        rw [lookup, lookup, ih]
        split
        next hk => rw [if_neg fun hn => hne (hn.trans hk.symm)]
        next => rfl

/-- A table that is inserted is found under its name, and under other names what was found
before. -/
theorem find?_insert (document : Document) (name other : String) (table : Table) :
    (document.insert name table).find? other =
      if name = other then some table else document.find? other :=
  lookup_put name other table document.tables

/-- What is taken out is not found, and under other names what was found before. -/
theorem lookup_filter (name other : String) (pairs : List (String × Table)) :
    lookup other (pairs.filter fun pair => pair.1 != name) =
      if name = other then none else lookup other pairs := by
  induction pairs with
  | nil => rw [List.filter_nil, lookup, ite_self]
  | cons pair rest ih =>
    obtain ⟨key, table⟩ := pair
    rw [List.filter_cons, lookup]
    by_cases hk : key = name
    · rw [if_neg (by simp [hk]), ih, hk]
      split <;> rfl
    · rw [if_pos (by simp [hk]), lookup, ih]
      split
      next ho => rw [if_neg fun hn => hk (ho.trans hn.symm)]
      next => rfl

/-- A table that is erased is not found, and under other names what was found before. -/
theorem find?_erase (document : Document) (name other : String) :
    (document.erase name).find? other = if name = other then none else document.find? other :=
  lookup_filter name other document.tables

/-- A document names a table exactly if one is found. -/
theorem mem_names_iff {document : Document} {name : String} :
    name ∈ document.names ↔ (document.find? name).isSome := by
  rw [names, find?]
  generalize document.tables = pairs
  induction pairs with
  | nil => simp [lookup]
  | cons pair rest ih =>
    obtain ⟨key, table⟩ := pair
    rw [List.map_cons, List.mem_cons, lookup, ih]
    split
    next hk => simp [hk]
    next hk => simp [Ne.symm hk]

end Document

/-! ## How a table was made -/

/-- How a table was made: its creation and the statements that changed rows since. -/
structure Making where
  /-- The creation. -/
  creation : Sql.Create
  /-- The changes of rows since then, in order. -/
  changes : List Sql.Statement
  deriving DecidableEq, Repr

namespace Making

/-- The rows that the changes leave. -/
def rows (making : Making) : List Row :=
  making.changes.foldl (fun rows statement => statement.change making.creation.columns rows) []

/-- The table. -/
def table (making : Making) : Table :=
  ⟨making.creation.columns, making.rows⟩

/-- The making with one more change of rows. -/
def extend (making : Making) (statement : Sql.Statement) : Making :=
  { making with changes := making.changes ++ [statement] }

/-- One more change of rows changes the rows of the table and keeps its columns. -/
theorem table_extend (making : Making) (statement : Sql.Statement) :
    (making.extend statement).table =
      ⟨making.table.schema, statement.change making.table.schema making.table.rows⟩ := by
  simp only [table, rows, extend, List.foldl_append, List.foldl_cons, List.foldl_nil]

end Making

namespace Sql

/-- Whether a statement is one that changes the rows of a table. -/
def Statement.changesRows : Statement → Bool
  | .insert _ => true
  | .update _ => true
  | .delete _ => true
  | _ => false

/-- How a table is made after a further statement about it. -/
def Statement.follow (making : Option Making) : Statement → Option Making
  | .create s => making.or (some ⟨s, []⟩)
  | .drop _ => none
  | .select _ => making
  | statement => making.map (·.extend statement)

/-- How statements that were run one after another made the table of a name; none if
they leave no such table. -/
def making (name : String) (statements : List Statement) : Option Making :=
  (statements.filter fun s => s.table = name).foldl Statement.follow none

/-- A further statement matters for the table that it is about and for no other one. -/
theorem making_append (name : String) (statements : List Statement) (statement : Statement) :
    making name (statements ++ [statement]) =
      if statement.table = name then statement.follow (making name statements)
      else making name statements := by
  rw [making, making, List.filter_append, List.filter_singleton]
  by_cases h : statement.table = name
  · simp [h]
  · simp [h]

/-- Only a creation begins a table. -/
theorem follow_none_eq_some {statement : Statement} {m : Making}
    (h : statement.follow none = some m) : statement = .create m.creation ∧ m.changes = [] := by
  cases statement with
  | create s =>
    obtain rfl := Option.some.inj h
    exact ⟨rfl, rfl⟩
  | select s => cases h
  | insert s => cases h
  | update s => cases h
  | delete s => cases h
  | drop s => cases h

/-- Only a removal ends it; the others add themselves if they change rows. -/
theorem follow_some_eq_some_iff {statement : Statement} {m n : Making} :
    statement.follow (some m) = some n ↔ (∀ s, statement ≠ .drop s) ∧
      n = if statement.changesRows then m.extend statement else m := by
  cases statement <;> simp [Statement.follow, Statement.changesRows, eq_comm]

/-- After a creation that was not for nothing, and as long as the table is not removed,
it is made by the creation and the changes of its rows. -/
theorem making_creation {name : String} {front back : List Statement} {creation : Create}
    (hname : creation.table = name) (hnone : making name front = none)
    (hkept : ∀ s, .drop s ∈ back → s.table ≠ name) :
    making name (front ++ .create creation :: back) =
      some ⟨creation, back.filter fun s => s.table = name ∧ s.changesRows⟩ := by
  induction back using List.reverseRecOn with
  | nil =>
    have htable : (Statement.create creation).table = name := hname
    rw [making_append, if_pos htable, hnone]
    rfl
  | append_singleton back statement ih =>
    have hback := ih fun s hs => hkept s (List.mem_append_left _ hs)
    rw [← List.cons_append, ← List.append_assoc, making_append, hback, List.filter_append]
    split
    next ht =>
      refine follow_some_eq_some_iff.mpr ⟨fun s hs => ?_, ?_⟩
      · subst hs
        exact hkept s (by simp) ht
      · by_cases hc : statement.changesRows = true
        · simp [ht, hc, Making.extend]
        · simp [ht, hc]
    next ht => simp [ht]

/-- A table was made by the last creation that was not for nothing, if no removal of it
came later, and by the changes of its rows since then. -/
theorem making_eq_some_iff {name : String} {statements : List Statement} {m : Making} :
    making name statements = some m ↔
      ∃ front back, statements = front ++ .create m.creation :: back ∧ m.creation.table = name ∧
        making name front = none ∧ (∀ s, .drop s ∈ back → s.table ≠ name) ∧
        m.changes = back.filter fun s => s.table = name ∧ s.changesRows := by
  constructor
  · intro h
    -- By induction from the end: the last statement decides by what it does to the table made
    -- before.
    induction statements using List.reverseRecOn generalizing m with
    | nil => cases h
    | append_singleton statements statement ih =>
      rw [making_append] at h
      split at h
      next hname =>
        cases hm : making name statements with
        | none =>
          rw [hm] at h
          obtain ⟨rfl, hchanges⟩ := follow_none_eq_some h
          exact ⟨statements, [], rfl, hname, hm, fun s hs => absurd hs List.not_mem_nil, hchanges⟩
        | some before =>
          rw [hm] at h
          obtain ⟨hdrop, hm'⟩ := follow_some_eq_some_iff.mp h
          obtain ⟨front, back, rfl, hcreation, hnone, hkept, hchanges⟩ := ih hm
          have hsame : m.creation = before.creation := by
            rw [hm']
            split <;> rfl
          refine ⟨front, back ++ [statement], by simp [hsame], hsame ▸ hcreation, hnone,
            fun s hs => ?_, ?_⟩
          · rcases List.mem_append.mp hs with hs | hs
            · exact hkept s hs
            · exact absurd (List.mem_singleton.mp hs).symm (hdrop s)
          · by_cases hc : statement.changesRows = true
            · simp [hm', hchanges, hname, hc, Making.extend]
            · simp [hm', hchanges, hname, hc]
      next hname =>
        obtain ⟨front, back, rfl, hcreation, hnone, hkept, hchanges⟩ := ih h
        refine ⟨front, back ++ [statement], by simp, hcreation, hnone, fun s hs => ?_, ?_⟩
        · rcases List.mem_append.mp hs with hs | hs
          · exact hkept s hs
          · obtain rfl := List.mem_singleton.mp hs
            exact hname
        · simp [hchanges, hname]
  · rintro ⟨front, back, rfl, hcreation, hnone, hkept, hchanges⟩
    rw [making_creation hcreation hnone hkept, ← hchanges]

end Sql

/-! ## Documents told by statements -/

/-- A document has the tables that the statements made and no others, and its tables
are regular. -/
structure Document.Tells (statements : List Sql.Statement) (document : Document) : Prop where
  /-- What is found under a name was made by the statements. -/
  find?_eq : ∀ name, document.find? name = (Sql.making name statements).map Making.table
  /-- Every table is regular. -/
  regular : ∀ {name table}, document.find? name = some table → table.Regular

namespace Document

variable {statements : List Sql.Statement} {document : Document}

/-- The document without tables is told by no statements. -/
theorem tells_empty : empty.Tells [] :=
  ⟨fun _ => rfl, nofun⟩

/-- A statement that concerns one table and leaves it as it has to be tells the next
document. -/
theorem Tells.next (h : document.Tells statements) {statement : Sql.Statement}
    {changed : Document} (name : String) (hname : statement.table = name)
    (hsame : changed.find? name =
      (statement.follow (Sql.making name statements)).map Making.table)
    (hregular : ∀ {table}, changed.find? name = some table → table.Regular)
    (hother : ∀ other, name ≠ other → changed.find? other = document.find? other) :
    changed.Tells (statements ++ [statement]) := by
  subst hname
  refine ⟨fun name => ?_, fun {name table} hf => ?_⟩
  · rw [Sql.making_append]
    split
    next he => rw [← he, hsame]
    next hne => rw [hother name hne, h.find?_eq]
  · by_cases he : statement.table = name
    · exact hregular (he ▸ hf)
    · exact h.regular (hother name he ▸ hf)

/-- A table that is put in place tells the next document. -/
theorem Tells.insert (h : document.Tells statements) {statement : Sql.Statement}
    (name : String) (hname : statement.table = name) {table : Table} (hr : table.Regular)
    (hsame : (statement.follow (Sql.making name statements)).map Making.table = some table) :
    (document.insert name table).Tells (statements ++ [statement]) := by
  refine h.next name hname ?_ (fun {found} hf => ?_) fun other hne => ?_
  · rw [find?_insert, if_pos rfl, hsame]
  · rw [find?_insert, if_pos rfl] at hf
    exact Option.some.inj hf ▸ hr
  · rw [find?_insert, if_neg hne]

/-- A change of rows that follows the statement tells the next document. -/
theorem Tells.change (h : document.Tells statements) {statement : Sql.Statement} {table : Table}
    {mutation : Mutation} (hf : document.find? statement.table = some table)
    (hm : Table.Follows statement table mutation)
    (hfollow : ∀ making : Option Making, statement.follow making =
      making.map (·.extend statement)) :
    ((Sql.Statement.effectOf document statement.table mutation).store.getD document).Tells
      (statements ++ [statement]) := by
  obtain ⟨m, hmaking, rfl⟩ : ∃ m, Sql.making statement.table statements = some m ∧
      m.table = table := by
    have hmap := (h.find?_eq statement.table).symm.trans hf
    exact Option.map_eq_some_iff.mp hmap
  have htable : mutation.table = (m.extend statement).table := by
    rw [hm.table_eq, Making.table_extend]
  have hnext : (statement.follow (Sql.making statement.table statements)).map Making.table =
      some mutation.table := by
    rw [hfollow, hmaking, htable]
    rfl
  simp only [Sql.Statement.effectOf]
  split
  next => exact h.insert statement.table rfl hm.regular hnext
  next hz =>
    have hsame := hm.unaffected (by omega)
    refine h.next statement.table rfl ?_ h.regular fun _ _ => rfl
    rw [hnext, hsame]
    exact hf

/-- A removal of a table that is missing is for nothing. -/
theorem Tells.drop_missing (h : document.Tells statements) {s : Sql.Drop}
    (hc : document.contains s.table = false) : document.Tells (statements ++ [.drop s]) := by
  have hnone : document.find? s.table = none := by simpa [contains] using hc
  exact h.next s.table rfl hnone h.regular fun _ _ => rfl

/-- A creation of a table that is there is for nothing. -/
theorem Tells.create_again (h : document.Tells statements) {s : Sql.Create}
    (hc : document.contains s.table = true) : document.Tells (statements ++ [.create s]) := by
  obtain ⟨table, hf⟩ := Option.isSome_iff_exists.mp hc
  have hmaking := (h.find?_eq s.table).symm.trans hf
  obtain ⟨m, hm, hmade⟩ := Option.map_eq_some_iff.mp hmaking
  refine h.next s.table rfl ?_ h.regular fun _ _ => rfl
  rw [hf, hm, ← hmade]
  rfl

/-- Any other creation begins a table. -/
theorem Tells.create (h : document.Tells statements) {s : Sql.Create}
    (hp : (Sql.Statement.create s).precheck = .ok ()) (hc : ¬document.contains s.table = true) :
    (document.insert s.table (.ofSchema s.columns)).Tells (statements ++ [.create s]) := by
  have hnone : document.find? s.table = none := by simpa [contains] using hc
  have hmaking : Sql.making s.table statements = none :=
    Option.map_eq_none_iff.mp ((h.find?_eq s.table).symm.trans hnone)
  have hdistinct := Sql.Validation.distinct_eq_ok_iff.mp (Result.mapError_eq_ok_iff.mp hp)
  refine h.insert s.table rfl ⟨hdistinct, List.forall_mem_nil _⟩ ?_
  rw [hmaking]
  rfl

/-- A removal ends a table. -/
theorem Tells.drop (h : document.Tells statements) (s : Sql.Drop) :
    (document.erase s.table).Tells (statements ++ [.drop s]) := by
  have hnone : (document.erase s.table).find? s.table = none := by rw [find?_erase, if_pos rfl]
  refine h.next s.table rfl hnone (fun hf => absurd (hnone.symm.trans hf) nofun) ?_
  intro other hne
  rw [find?_erase, if_neg hne]

/-- A statement that has an effect tells the next document. -/
theorem Tells.effect (h : document.Tells statements) {statement : Sql.Statement} {effect : Effect}
    (hp : statement.precheck = .ok ()) (he : statement.effect document = .ok effect) :
    (effect.store.getD document).Tells (statements ++ [statement]) := by
  cases statement with
  | select s =>
    obtain ⟨table, _, _, rfl⟩ := Sql.Statement.exists_table_of_ok (.select s) he
    exact h.next s.table rfl (h.find?_eq s.table) h.regular fun _ _ => rfl
  | insert s =>
    obtain ⟨table, hf, hv, rfl⟩ := Sql.Statement.exists_table_of_ok (.insert s) he
    exact h.change hf (Table.follows_insert (h.regular hf) hv) fun _ => rfl
  | update s =>
    obtain ⟨table, hf, hv, rfl⟩ := Sql.Statement.exists_table_of_ok (.update s) he
    exact h.change hf (Table.follows_update (h.regular hf) hv) fun _ => rfl
  | delete s =>
    obtain ⟨table, hf, _, rfl⟩ := Sql.Statement.exists_table_of_ok (.delete s) he
    exact h.change hf (Table.follows_delete (h.regular hf) s) fun _ => rfl
  | create s =>
    simp only [Sql.Statement.effect, Sql.Statement.createIn] at he
    split at he
    next hc =>
      split at he
      · cases he
        -- The table is there, and the creation is for nothing.
        exact h.create_again hc
      · cases he
    next hc =>
      cases he
      exact h.create hp hc
  | drop s =>
    simp only [Sql.Statement.effect, Sql.Statement.dropIn] at he
    split at he
    · cases he
      exact h.drop s
    · cases he

end Document

end EmbeddedSql
