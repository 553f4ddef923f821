import EmbeddedSql.Proofs.Session.Effect
import EmbeddedSql.Proofs.Session.Scripts
import EmbeddedSql.Session.Handle

/-!
# Only consistent documents are stored

Whatever is asked of a handle, every document that it hands to its store is
consistent, provided that the one it began with was. A statement turns a
consistent document into a consistent one, since it was checked against the
columns and its own numbers are finite; and between two statements the store
gives back what was put into it. The store keeps a record of all documents that
were ever handed to it, those that it refused included.
-/

namespace EmbeddedSql

open Result

/-! ## Statements -/

namespace Sql.Statement

/-- Storing a consistent table leaves the document consistent. -/
theorem consistent_effectOf {document changed : Document} {name : String} {mutation : Mutation}
    (h : document.Consistent) (hm : mutation.table.Consistent)
    (hs : (effectOf document name mutation).store = some changed) : changed.Consistent := by
  simp only [effectOf] at hs
  split at hs
  · rw [← Option.some.inj hs]
    exact Document.consistent_insert h hm name
  · cases hs

/-- The document that a statement wants stored is consistent if the one that it
was given is. -/
theorem consistent_effect {statement : Statement} {document changed : Document} {effect : Effect}
    (hp : statement.precheck = .ok ()) (hf : statement.Finite) (h : document.Consistent)
    (he : statement.effect document = .ok effect) (hs : effect.store = some changed) :
    changed.Consistent := by
  cases statement with
  | select s =>
    obtain ⟨table, _, _, rfl⟩ := exists_table_of_ok (.select s) he
    cases hs
  | insert s =>
    obtain ⟨table, ht, hv, rfl⟩ := exists_table_of_ok (.insert s) he
    have hvalues : ∀ tuple ∈ s.tuples, ∀ v ∈ tuple, v.isFinite = true :=
      fun tuple htuple v hm => hf v (List.mem_flatten_of_mem htuple hm)
    have hbefore : table.Consistent := h _ (Document.mem_of_find? ht)
    have hafter := Table.consistent_insert hbefore hv hvalues
    exact consistent_effectOf h hafter hs
  | update s =>
    obtain ⟨table, ht, hv, rfl⟩ := exists_table_of_ok (.update s) he
    have hvalues : ∀ a ∈ s.assignments, a.value.isFinite = true :=
      fun a ha => hf a.value (List.mem_map_of_mem ha)
    have hbefore : table.Consistent := h _ (Document.mem_of_find? ht)
    have hafter := Table.consistent_update hbefore hv hvalues
    exact consistent_effectOf h hafter hs
  | delete s =>
    obtain ⟨table, ht, _, rfl⟩ := exists_table_of_ok (.delete s) he
    have hbefore : table.Consistent := h _ (Document.mem_of_find? ht)
    have hafter := Table.consistent_delete hbefore s
    exact consistent_effectOf h hafter hs
  | create s =>
    simp only [Statement.effect, createIn] at he
    split at he
    · split at he
      · cases he
        cases hs
      · cases he
    · cases he
      have hnew := Table.consistent_ofSchema (mapError_eq_ok_iff.mp hp)
      rw [← Option.some.inj hs]
      exact Document.consistent_insert h hnew s.table
  | drop s =>
    simp only [Statement.effect, dropIn] at he
    split at he
    · cases he
      rw [← Option.some.inj hs]
      exact Document.consistent_erase h s.table
    · cases he

end Sql.Statement

/-- A statement together with the text that it was read from. -/
structure Sql.ParsedStatement where
  /-- The text. -/
  text : List Char
  /-- The statement. -/
  statement : Statement
  /-- The text is read as the statement. -/
  read : parseStatement text = .ok statement

/-! ## Stores -/

namespace Storage.Backend

variable {σ : Type}

/-- The backend that also records every document that it is to write, whether
it then writes it or refuses. -/
def recording (backend : Backend σ) : Backend (σ × List Document) where
  read store := backend.read store.1
  write document store :=
    let (state, result) := backend.write document store.1
    ((state, store.2 ++ [document]), result)

/-- A backend keeps documents of a kind: what is read after an attempt to write
one of them is of that kind as well, or it is what was read before. This is all
that is asked of a write, which replaces the document or fails. -/
structure Keeps (backend : Backend σ) (kind : Document → Prop) : Prop where
  /-- Reading after an attempt to write. -/
  read_write : ∀ {document found : Document} {store : σ}, kind document →
    backend.read (backend.write document store).1 = .ok found →
      kind found ∨ backend.read store = .ok found

/-- Memory keeps documents of every kind. -/
theorem keeps_memory (kind : Document → Prop) : memory.Keeps kind where
  read_write hd hf := .inl (Except.ok.inj hf ▸ hd)

/-- So does memory that can refuse. -/
theorem keeps_switchable (kind : Document → Prop) : switchable.Keeps kind where
  read_write {document found store} hd hf := by
    simp only [switchable] at hf ⊢
    by_cases hw : store.refusesWrites = true
    · rw [if_pos hw] at hf
      exact .inr hf
    · rw [if_neg hw] at hf
      split at hf
      · cases hf
      · exact .inl (Except.ok.inj hf ▸ hd)

/-- What can be read from a store with a record is of a kind, and so is every
recorded document. -/
structure Sound (backend : Backend σ) (kind : Document → Prop) (store : σ × List Document) :
    Prop where
  /-- What can be read. -/
  read : ∀ {document}, backend.read store.1 = .ok document → kind document
  /-- What was recorded. -/
  record : ∀ document ∈ store.2, kind document

/-- Writing a document of the kind keeps the store sound. -/
theorem Sound.write {backend : Backend σ} {kind : Document → Prop} {store : σ × List Document}
    (hb : backend.Keeps kind) (h : backend.Sound kind store) {document : Document}
    (hd : kind document) : backend.Sound kind (backend.recording.write document store).1 := by
  constructor
  · intro found hf
    rcases hb.read_write hd hf with hk | hr
    · exact hk
    · exact h.read hr
  · intro recorded hm
    rcases List.mem_append.mp hm with hm | hm
    · exact h.record recorded hm
    · rw [List.mem_singleton.mp hm]
      exact hd

end Storage.Backend

/-! ## Handles -/

/-- What can be asked of a handle: that the statements of a template with its
parameters be run, those of a script, or one statement that was read. -/
inductive Request where
  /-- A template and its parameters. -/
  | run (template : List Char) (parameters : List Value)
  /-- A script. -/
  | runAll (script : List Char)
  /-- A statement. -/
  | execute (parsed : Sql.ParsedStatement)

namespace Handle

variable {σ : Type}

/-- The handle and the store after a request, whatever its result. -/
def serve (backend : Storage.Backend σ) (handle : Handle) (store : σ) : Request → Handle × σ
  | .run template parameters =>
    let (handle, store, _) := run backend template parameters handle store
    (handle, store)
  | .runAll script =>
    let (handle, store, _) := runAll backend script handle store
    (handle, store)
  | .execute parsed =>
    let (handle, store, _) := execute backend parsed.statement handle store
    (handle, store)

/-- The handle and the store after requests that are made one after another. -/
def serveAll (backend : Storage.Backend σ) : List Request → Handle → σ → Handle × σ
  | [], handle, store => (handle, store)
  | request :: rest, handle, store =>
    let (handle, store) := serve backend handle store request
    serveAll backend rest handle store

variable {backend : Storage.Backend σ} {store : σ × List Document} (handle : Handle)

/-- Performing a finite statement keeps the store sound. -/
theorem sound_perform {statement : Sql.Statement} (hb : backend.Keeps Document.Consistent)
    (hp : statement.precheck = .ok ()) (hf : statement.Finite)
    (h : backend.Sound Document.Consistent store) :
    backend.Sound Document.Consistent
      (perform backend.recording statement handle store).2.1 := by
  unfold perform
  split
  next => exact h
  next effect he =>
    obtain ⟨document, hl, he⟩ := bind_eq_ok_iff.mp he
    have hread : backend.read store.1 = .ok document := mapError_eq_ok_iff.mp hl
    split
    next => exact h
    next changed hs =>
      have hd := Sql.Statement.consistent_effect hp hf (h.read hread) he hs
      have hw := h.write hb hd
      split
      next after hr => rwa [hr] at hw
      next after e hr => rwa [hr] at hw

/-- Running a finite statement keeps the store sound. -/
theorem sound_execute {statement : Sql.Statement} (hb : backend.Keeps Document.Consistent)
    (hf : statement.Finite) (h : backend.Sound Document.Consistent store) :
    backend.Sound Document.Consistent
      (execute backend.recording statement handle store).2.1 := by
  unfold execute
  split
  next => exact h
  next hp =>
    split
    next => exact h
    next found hfind => exact sound_perform found hb hp hf h

/-- Running finite statements one after another keeps the store sound. -/
theorem sound_executeAll {statements : List Sql.Statement} {done : List (List Row)}
    (hb : backend.Keeps Document.Consistent) (hf : ∀ statement ∈ statements, statement.Finite)
    (h : backend.Sound Document.Consistent store) :
    backend.Sound Document.Consistent
      (executeAll backend.recording done statements handle store).2.1 := by
  induction statements generalizing handle store done with
  | nil => exact h
  | cons statement rest ih =>
    have hs := List.forall_mem_cons.mp hf
    have hfirst := sound_execute handle hb hs.1 h
    rw [executeAll]
    split
    next after later rows he =>
      rw [he] at hfirst
      exact ih after hs.2 hfirst
    next after later e he => rwa [he] at hfirst

/-- Running a script keeps the store sound. -/
theorem sound_runAll (script : List Char) (hb : backend.Keeps Document.Consistent)
    (h : backend.Sound Document.Consistent store) :
    backend.Sound Document.Consistent (runAll backend.recording script handle store).2.1 := by
  unfold runAll
  split
  next => exact h
  next statements hs => exact sound_executeAll handle hb (Sql.finite_of_parseScript hs) h

/-- Running a template with any parameters keeps the store sound. -/
theorem sound_run {template : List Char} {parameters : List Value}
    (hb : backend.Keeps Document.Consistent) (h : backend.Sound Document.Consistent store) :
    backend.Sound Document.Consistent
      (run backend.recording template parameters handle store).2.1 := by
  rw [run_eq]
  split
  next => exact h
  next script _ =>
    have hall := sound_runAll handle script hb h
    split
    next after later results hr => rwa [hr] at hall
    next after later e hr => rwa [hr] at hall

/-- Any request keeps the store sound. -/
theorem sound_serve (hb : backend.Keeps Document.Consistent) (request : Request)
    (h : backend.Sound Document.Consistent store) :
    backend.Sound Document.Consistent (serve backend.recording handle store request).2 := by
  cases request with
  | run template parameters => exact sound_run handle hb h
  | runAll script => exact sound_runAll handle script hb h
  | execute parsed => exact sound_execute handle hb (Sql.finite_of_parseStatement parsed.read) h

/-- Any requests, one after another, keep the store sound. -/
theorem sound_serveAll (hb : backend.Keeps Document.Consistent) (requests : List Request)
    (h : backend.Sound Document.Consistent store) :
    backend.Sound Document.Consistent (serveAll backend.recording requests handle store).2 := by
  induction requests generalizing handle store with
  | nil => exact h
  | cons request rest ih => exact ih _ (sound_serve handle hb request h)

/-- Every document that a handle ever hands to its store is consistent, whatever
requests are made of it and whichever of them fail, if what could be read at the
beginning was consistent, as the document without tables is. -/
theorem consistent_of_mem_record {initial : σ} (hb : backend.Keeps Document.Consistent)
    (hi : ∀ {document}, backend.read initial = .ok document → document.Consistent)
    (requests : List Request) :
    Document.empty.Consistent ∧
      ∀ document ∈ (serveAll backend.recording requests handle (initial, [])).2.2,
        document.Consistent := by
  have hsound : backend.Sound Document.Consistent (initial, []) := ⟨hi, List.forall_mem_nil _⟩
  exact ⟨Document.consistent_empty, (sound_serveAll handle hb requests hsound).record⟩

/-- A table is made, a row is added with a parameter, and an insertion of the
wrong type fails: two documents are written, and both are consistent. -/
theorem consistent_of_mem_record_in_memory :
    let handle := ofDocument .default .empty
    let requests : List Request :=
      [.runAll "CREATE TABLE t (a NUMERIC, b TEXT)".toList,
        .run "INSERT INTO t (b) VALUES ($1)".toList [.text "x"],
        .runAll "INSERT INTO t VALUES ('y', 1)".toList]
    let record := (serveAll Storage.memory.recording requests handle (.empty, [])).2.2
    record.length = 2 ∧ Document.empty.Consistent ∧ ∀ document ∈ record, document.Consistent := by
  refine ⟨by decide +kernel, consistent_of_mem_record _ (Storage.Backend.keeps_memory _) ?_ _⟩
  intro document hd
  rw [← Except.ok.inj hd]
  exact Document.consistent_empty

end Handle

end EmbeddedSql
