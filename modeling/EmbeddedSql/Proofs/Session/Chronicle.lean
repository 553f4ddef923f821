import EmbeddedSql.Proofs.Session.Persistence
import EmbeddedSql.Proofs.Table.Chronicle

/-!
# What a handle answers, from the statements that it ran

A handle on a store that was empty, and that nobody else writes, lists the tables
and gives back the columns and the rows that the statements it ran with success made,
whatever failed in between. Stores give documents back as they were stored, or
documents that are like them.
-/

namespace EmbeddedSql

/-! ## Stores that keep what is written to them -/

/-- How exactly a store gives back documents. -/
inductive Fidelity where
  /-- As they were stored. -/
  | exact
  /-- Documents like them, if all numbers are finite. -/
  | likeness
  deriving DecidableEq, Repr

namespace Fidelity

/-- A document may be given back for another one. -/
def Documents : Fidelity → Document → Document → Prop
  | exact => Eq
  | likeness => Document.Alike

/-- Rows may be given back for others. -/
def Rows : Fidelity → List Row → List Row → Prop
  | exact => Eq
  | likeness => List.Forall₂ Row.Alike

/-- A document can be kept. -/
def Keeps : Fidelity → Document → Prop
  | exact, _ => True
  | likeness, document => document.Consistent

/-- A statement can be run. -/
def Takes : Fidelity → Sql.Statement → Prop
  | exact, _ => True
  | likeness, statement => statement.Finite

variable {fidelity : Fidelity} {a b : Document} {statement : Sql.Statement}

/-- The document without tables can be kept. -/
theorem keeps_empty : fidelity.Keeps .empty := by
  cases fidelity with
  | exact => trivial
  | likeness => exact Document.consistent_empty

/-- A document that may be given back for another one names the same tables. -/
theorem names_eq (h : fidelity.Documents a b) : a.names = b.names := by
  cases fidelity with
  | exact => exact congrArg Document.names h
  | likeness => exact Document.Alike.names_eq h

/-- What is found under a name has the same columns, and rows that may be given back. -/
theorem find?_rel (h : fidelity.Documents a b) (name : String) :
    Option.Rel (fun s t : Table => s.schema = t.schema ∧ fidelity.Rows s.rows t.rows)
      (a.find? name) (b.find? name) := by
  cases fidelity with
  | exact =>
    obtain rfl : a = b := h
    cases a.find? name with
    | none => exact .none
    | some table => exact .some ⟨rfl, rfl⟩
  | likeness =>
    have hrel := Document.Alike.find? h name
    generalize a.find? name = x at hrel
    generalize b.find? name = y at hrel
    cases hrel with
    | none => exact .none
    | some ht => exact .some ⟨ht.schema, ht.rows⟩

/-- A document that may be given back for another one contains the same tables. -/
theorem contains_eq (h : fidelity.Documents a b) (name : String) :
    a.contains name = b.contains name := by
  rw [Document.contains, Document.contains]
  have hrel := find?_rel h name
  generalize a.find? name = x at hrel
  generalize b.find? name = y at hrel
  cases hrel <;> rfl

/-- A statement has the same effect on documents given back. -/
theorem exists_effect (h : fidelity.Documents a b) (ht : fidelity.Takes statement)
    {effect : Effect} (he : statement.effect b = .ok effect) :
    ∃ other, statement.effect a = .ok other ∧
      Option.Rel fidelity.Documents other.store effect.store := by
  cases fidelity with
  | exact =>
    obtain rfl : a = b := h
    refine ⟨effect, he, ?_⟩
    cases effect.store with
    | none => exact .none
    | some changed => exact .some rfl
  | likeness =>
    have hrel := Sql.Statement.effect_alike h ht
    rw [he] at hrel
    generalize statement.effect a = x at hrel
    cases hrel with
    | ok halike => exact ⟨_, rfl, halike.store⟩

/-- The document after a statement can be kept. -/
theorem keeps_effect (ht : fidelity.Takes statement) (hk : fidelity.Keeps a)
    (hp : statement.precheck = .ok ()) {effect : Effect} (he : statement.effect a = .ok effect) :
    fidelity.Keeps (effect.store.getD a) := by
  cases fidelity with
  | exact => trivial
  | likeness =>
    cases hs : effect.store with
    | none => exact hk
    | some changed => exact Sql.Statement.consistent_effect hp ht hk he hs

end Fidelity

variable {σ : Type}

/-- A store goes on to hold a document until another one is written: what it gives
back may be given back for the document that it holds, it holds what was written, and
it holds what it held if writing failed. -/
structure Storage.Backend.Retains (backend : Storage.Backend σ) (fidelity : Fidelity)
    (holds : σ → Document → Prop) : Prop where
  /-- What is read. -/
  read : ∀ {store document found}, holds store document → backend.read store = .ok found →
    fidelity.Documents document found
  /-- A write that works. -/
  stored : ∀ {store held document written after}, holds store held → fidelity.Keeps document →
    fidelity.Documents document written → backend.write written store = (after, .ok ()) →
    holds after document
  /-- A write that fails. -/
  refused : ∀ {store held written after e}, holds store held →
    backend.write written store = (after, .error e) → holds after held

namespace Storage

/-- Memory holds the document that it is. -/
theorem retains_memory : memory.Retains .exact fun store document => store = document where
  read {_ _ found} hh hr := hh.symm.trans (Except.ok.inj hr)
  stored {_ _ document written after} _ _ hd hw := by
    have hd : document = written := hd
    have hafter : written = after := (Prod.mk.inj hw).1
    exact (hd.trans hafter).symm
  refused _ hw := absurd (Prod.mk.inj hw).2 nofun

/-- So does memory that can refuse, whether it refuses or not. -/
theorem retains_switchable :
    switchable.Retains .exact fun store document => store.document = document where
  read {store document found} hh hr := by
    simp only [switchable] at hr
    split at hr
    · cases hr
    · exact hh.symm.trans (Except.ok.inj hr)
  stored {store held document written after} _ _ hd hw := by
    obtain rfl : document = written := hd
    simp only [switchable] at hw
    split at hw
    · cases hw
    · exact (Prod.mk.inj hw).1 ▸ rfl
  refused {store held written after e} hh hw := by
    simp only [switchable] at hw
    split at hw
    · exact (Prod.mk.inj hw).1 ▸ hh
    · cases hw

/-- A file that can be written holds every document that it decodes to up to likeness. -/
theorem JsonFile.retains {double : Json.NumberReading} (h : double.ReadsBack) (path : Path) :
    (backend (Json.Numeral.withIntegers double) path).Retains .likeness
      fun system document => Mirrors double path document system where
  read {system document found} hm hr := by
    obtain ⟨other, hread, halike⟩ := hm.decodes
    obtain rfl : other = found := Except.ok.inj (hread.symm.trans hr)
    exact halike
  stored {system held document written after} hm hk hd hw := by
    have hmirrors := ((simulates_memory h path).write hm hk hd).2
    rw [hw] at hmirrors
    exact hmirrors
  refused {system held written after e} hm hw := by
    obtain ⟨done, hdone, _⟩ := write_of_writable hm.writable written
    exact absurd (hw.symm.trans hdone) (by simp)

end Storage

/-! ## Runs -/

/-- The statements of a record that succeeded. -/
def succeeded (log : List (Sql.Statement × Except Error (List Row))) : List Sql.Statement :=
  log.filterMap fun entry =>
    match entry.2 with
    | .ok _ => some entry.1
    | .error _ => none

/-- A statement at the end of a record is among those that succeeded if it did. -/
theorem succeeded_append (log : List (Sql.Statement × Except Error (List Row)))
    (statement : Sql.Statement) (result : Except Error (List Row)) :
    succeeded (log ++ [(statement, result)]) =
      match result with
      | .ok _ => succeeded log ++ [statement]
      | .error _ => succeeded log := by
  rw [succeeded, List.filterMap_append]
  cases result with
  | ok rows => rfl
  | error e => exact List.append_nil _

/-- The statements that a handle ran one after another, with their results, since it
was opened on an empty store. In between the store may turn to refuse or to accept
reading and writing, or change in other ways, but not in what it holds. -/
inductive Handle.Ran (backend : Storage.Backend σ) (fidelity : Fidelity)
    (holds : σ → Document → Prop) :
    List (Sql.Statement × Except Error (List Row)) → Handle → σ → Prop
  | opened {config : Config} {store : σ} {handle : Handle} (empty : holds store .empty)
      (opened : Handle.open? backend config store = .ok handle) :
      Ran backend fidelity holds [] handle store
  | executed {log : List (Sql.Statement × Except Error (List Row))} {handle next : Handle}
      {store after : σ} {statement : Sql.Statement} {result : Except Error (List Row)}
      (before : Ran backend fidelity holds log handle store) (takes : fidelity.Takes statement)
      (run : Handle.execute backend statement handle store = (next, after, result)) :
      Ran backend fidelity holds (log ++ [(statement, result)]) next after
  | outside {log : List (Sql.Statement × Except Error (List Row))} {handle : Handle}
      {store after : σ} (before : Ran backend fidelity holds log handle store)
      (same : ∀ document, holds store document → holds after document) :
      Ran backend fidelity holds log handle after

namespace Handle

variable {backend : Storage.Backend σ} {fidelity : Fidelity} {holds : σ → Document → Prop}
  {log : List (Sql.Statement × Except Error (List Row))} {handle : Handle} {store : σ}

/-- What a store holds is told by the statements that succeeded. -/
structure Told (fidelity : Fidelity) (holds : σ → Document → Prop)
    (statements : List Sql.Statement) (store : σ) (document : Document) : Prop where
  /-- The store holds the document. -/
  holds : holds store document
  /-- The document can be kept. -/
  keeps : fidelity.Keeps document
  /-- The statements tell it. -/
  tells : document.Tells statements

/-- A statement that succeeds is told by what is held afterwards, and one that fails
changes nothing of what is held. -/
theorem told_execute (hb : backend.Retains fidelity holds) {statements : List Sql.Statement}
    {document : Document} (h : Told fidelity holds statements store document)
    {statement : Sql.Statement} (ht : fidelity.Takes statement) {after : σ}
    {result : Except Error (List Row)}
    (hr : outcome backend statement store = (after, result)) :
    ∃ next, match result with
      | .ok _ => Told fidelity holds (statements ++ [statement]) after next
      | .error _ => Told fidelity holds statements after next := by
  cases result with
  | error e =>
    refine ⟨document, ?_, h.keeps, h.tells⟩
    rcases outcome_error hr with rfl | ⟨changed, f, hw⟩
    · exact h.holds
    · exact hb.refused h.holds hw
  | ok rows =>
    obtain ⟨hp, found, hread, hcases⟩ := outcome_ok hr
    have hfound := hb.read h.holds hread
    rcases hcases with ⟨s, rfl, hc, rfl⟩ | ⟨effect, he, _, hstore⟩
    · have hmissing := (Fidelity.contains_eq hfound s.table).trans hc
      exact ⟨document, h.holds, h.keeps, h.tells.drop_missing hmissing⟩
    -- What was read may be given back for the document that is told, so the statement does
    -- alike on both.
    · obtain ⟨other, ho, hrel⟩ := Fidelity.exists_effect hfound ht he
      have hkeeps := Fidelity.keeps_effect ht h.keeps hp ho
      refine ⟨other.store.getD document, ?_, hkeeps, h.tells.effect hp ho⟩
      rcases hstore with ⟨hnone, rfl⟩ | ⟨changed, hsome, hw⟩
      · rw [hnone] at hrel
        obtain hsame : other.store = none := by
          generalize other.store = x at hrel
          cases hrel
          rfl
        rw [hsame]
        exact h.holds
      · rw [hsome] at hrel
        obtain ⟨mine, hmine, hd⟩ : ∃ mine, other.store = some mine ∧
            fidelity.Documents mine changed := by
          generalize other.store = x at hrel
          cases hrel with
          | some hd => exact ⟨_, rfl, hd⟩
        rw [hmine] at hkeeps ⊢
        exact hb.stored h.holds hkeeps hd hw

/-- After every run what is held is told by the statements that succeeded. -/
theorem exists_told (hb : backend.Retains fidelity holds)
    (h : Ran backend fidelity holds log handle store) :
    ∃ document, Told fidelity holds (succeeded log) store document := by
  induction h with
  | opened empty _ => exact ⟨.empty, empty, Fidelity.keeps_empty, Document.tells_empty⟩
  | @executed log handle next store after statement result before takes run ih =>
    obtain ⟨document, h⟩ := ih
    have hr : outcome backend statement store = (after, result) := by
      rw [← execute_snd statement handle store, run]
    obtain ⟨changed, hchanged⟩ := told_execute hb h takes hr
    refine ⟨changed, ?_⟩
    rw [succeeded_append]
    cases result with
    | ok rows => exact hchanged
    | error e => exact hchanged
  | outside before same ih =>
    obtain ⟨document, h⟩ := ih
    exact ⟨document, same document h.holds, h.keeps, h.tells⟩

/-- All rows of a table that is found are given back. -/
theorem execute_select {found : Document} (hr : backend.read store = .ok found) (name : String)
    (handle : Handle) :
    (execute backend (.select ⟨name, .all, []⟩) handle store).2 =
      (store, (Sql.Statement.tableIn found name).map (·.rows)) := by
  have hload : load backend store = .ok found := by rw [load, hr]; rfl
  have hp : (Sql.Statement.select ⟨name, .all, []⟩).precheck = .ok () := rfl
  rw [execute_snd, outcome, hp, hload, Result.ok_bind, Sql.Statement.effect, Sql.Statement.tableIn]
  cases found.find? name with
  | none => rfl
  | some table =>
    have hall : table.select ⟨name, .all, []⟩ = table.rows := by
      have haccept : table.rows.filter (Sql.Conditions.accept []) = table.rows :=
        List.filter_eq_self.mpr fun _ _ => rfl
      rw [Table.select, haccept]
      exact List.map_id table.rows
    simp only [Result.ok_bind]
    rw [hall]
    rfl

/-- After any statements on a store that was empty: the tables are those whose last
creation or removal that was not for nothing was a creation, their names come in the
order of their bytes, the columns are those of that creation, and the rows, all and in
order, are those that the insertions, updates and deletions since then leave, beginning
with none. -/
theorem answers_of_ran (hb : backend.Retains fidelity holds)
    (h : Ran backend fidelity holds log handle store) {found : Document}
    (hr : backend.read store = .ok found) :
    (∃ names, tableNames backend store = .ok names ∧
      names.Pairwise (fun a b => Text.Utf8.encode a.toList < Text.Utf8.encode b.toList) ∧
      ∀ name, name ∈ names ↔ (Sql.making name (succeeded log)).isSome) ∧
    ∀ name,
      match Sql.making name (succeeded log) with
      | none =>
        schema backend name store = .error (.catalog (.tableNotFound name)) ∧
        (execute backend (.select ⟨name, .all, []⟩) handle store).2.2 =
          .error (.catalog (.tableNotFound name))
      | some making =>
        schema backend name store = .ok making.creation.columns ∧
        ∃ rows, (execute backend (.select ⟨name, .all, []⟩) handle store).2.2 = .ok rows ∧
          fidelity.Rows making.rows rows := by
  obtain ⟨document, htold⟩ := exists_told hb h
  have hd := hb.read htold.holds hr
  have hload : load backend store = .ok found := by rw [load, hr]; rfl
  refine ⟨⟨found.names, ?_, ?_, fun name => ?_⟩, fun name => ?_⟩
  · rw [tableNames, hload]
    rfl
  · refine List.pairwise_map.mpr (found.increasing.imp fun {a b} hlt => ?_)
    have hlt : a.1.toList < b.1.toList := hlt
    exact Text.Utf8.encode_lt hlt
  · rw [← Fidelity.names_eq hd, Document.mem_names_iff, htold.tells.find?_eq, Option.isSome_map]
  · have hrel := Fidelity.find?_rel hd name
    rw [htold.tells.find?_eq] at hrel
    rw [execute_select hr, schema, hload, Result.ok_bind, Sql.Statement.tableIn]
    cases hm : Sql.making name (succeeded log) with
    | none =>
      rw [hm] at hrel
      generalize found.find? name = y at hrel
      cases hrel
      exact ⟨rfl, rfl⟩
    | some making =>
      rw [hm] at hrel
      generalize found.find? name = y at hrel
      cases hrel with
      | some ht => exact ⟨congrArg Except.ok ht.1.symm, _, rfl, ht.2⟩

/-- Runs statements one after another, whatever their results, and records them. -/
def executeEach (backend : Storage.Backend σ) : List Sql.Statement → Handle → σ →
    List (Sql.Statement × Except Error (List Row)) × Handle × σ
  | [], handle, store => ([], handle, store)
  | statement :: rest, handle, store =>
    let (handle, store, result) := execute backend statement handle store
    let (log, handle, store) := executeEach backend rest handle store
    ((statement, result) :: log, handle, store)

/-- Running statements one after another goes on with a run. -/
theorem ran_executeEach {statements : List Sql.Statement}
    (ht : ∀ statement ∈ statements, fidelity.Takes statement)
    (h : Ran backend fidelity holds log handle store) :
    Ran backend fidelity holds (log ++ (executeEach backend statements handle store).1)
      (executeEach backend statements handle store).2.1
      (executeEach backend statements handle store).2.2 := by
  induction statements generalizing log handle store with
  | nil =>
    rw [executeEach, List.append_nil]
    exact h
  | cons statement rest ih =>
    obtain ⟨hfirst, hrest⟩ := List.forall_mem_cons.mp ht
    have hnext := ih hrest (.executed h hfirst rfl)
    rw [List.append_assoc] at hnext
    exact hnext

/-- A table that is removed and made again with other columns, among statements that
fail and statements that are for nothing. -/
theorem answers_of_ran_again :
    let again : Sql.Create := ⟨"t", true, [⟨"a", .text⟩, ⟨"b", .boolean⟩]⟩
    let changes : List Sql.Statement :=
      [.insert ⟨"t", .named ["b"], [[.boolean true], [.boolean false]], .named []⟩,
        .update ⟨"t", [⟨"a", .text "y"⟩], [[⟨"b", .equal, .boolean true⟩]], .named []⟩,
        .delete ⟨"t", [[⟨"b", .equal, .boolean false⟩]], .named []⟩]
    let statements : List Sql.Statement :=
      [.create ⟨"t", false, [⟨"a", .numeric⟩]⟩, .create ⟨"t", false, []⟩,
        .insert ⟨"t", .all, [[.null]], .named []⟩, .insert ⟨"t", .all, [[.text "x"]], .named []⟩,
        .drop ⟨"t", false⟩, .drop ⟨"t", true⟩, .create again, .create again,
        .select ⟨"t", .named ["a"], []⟩] ++ changes
    let run := executeEach Storage.memory statements (ofDocument .default .empty) .empty
    Ran Storage.memory .exact (fun store document => store = document) run.1 run.2.1 run.2.2 ∧
      Storage.memory.read run.2.2 = .ok run.2.2 ∧
      Sql.making "t" (succeeded run.1) = some ⟨again, changes⟩ ∧
      schema Storage.memory "t" run.2.2 = .ok again.columns ∧
      (execute Storage.memory (.select ⟨"t", .all, []⟩) run.2.1 run.2.2).2.2 =
        .ok [⟨[("a", .text "y"), ("b", .boolean true)]⟩] := by
  intro again changes statements run
  have hopened : open? Storage.memory .default .empty = .ok (ofDocument .default .empty) := rfl
  have htakes : ∀ statement ∈ statements, Fidelity.exact.Takes statement := fun _ _ => trivial
  have hran : Ran Storage.memory .exact (fun store document => store = document)
      run.1 run.2.1 run.2.2 := ran_executeEach htakes (.opened rfl hopened)
  have hmaking : Sql.making "t" (succeeded run.1) = some ⟨again, changes⟩ := by decide +kernel
  have hanswers := (answers_of_ran Storage.retains_memory hran rfl).2 "t"
  rw [hmaking] at hanswers
  obtain ⟨hschema, rows, hselect, hrows⟩ := hanswers
  have hrows : Making.rows ⟨again, changes⟩ = rows := hrows
  refine ⟨hran, rfl, hmaking, hschema, ?_⟩
  rw [hselect, ← hrows]
  decide +kernel

end Handle

end EmbeddedSql
