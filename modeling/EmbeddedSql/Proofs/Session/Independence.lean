import EmbeddedSql.Proofs.Session.Chronicle
import EmbeddedSql.Proofs.Session.Tables
import EmbeddedSql.Proofs.Table.Locality

/-!
# Tables do not interfere

Every statement stores the whole document. All the same, what the statements on a table
give back and leave of it is what they would give back and leave if nothing were done on
other tables, as long as the store does not fail. So statements on different tables can
change places.
-/

namespace EmbeddedSql

variable {σ : Type}

/-! ## Results that are given back alike -/

namespace Fidelity

/-- Results may be given back for others: the same errors, or such rows. -/
def Results (fidelity : Fidelity) : Except Error (List Row) → Except Error (List Row) → Prop :=
  Result.Alike Eq fidelity.Rows

/-- Effects may be had for others. -/
structure Effects (fidelity : Fidelity) (x y : Effect) : Prop where
  /-- The rows given back. -/
  rows : fidelity.Rows x.rows y.rows
  /-- The documents to be stored. -/
  store : Option.Rel fidelity.Documents x.store y.store

variable {fidelity : Fidelity}

/-- A store that gives documents back exactly gives back the same results. -/
theorem results_exact_iff {x y : Except Error (List Row)} : exact.Results x y ↔ x = y := by
  constructor
  · intro h
    cases h with
    | ok h => exact congrArg Except.ok h
    | error h => exact congrArg Except.error h
  · rintro rfl
    cases x with
    | ok rows => exact .ok rfl
    | error e => exact .error rfl

/-- No rows may be given back for no rows. -/
theorem rows_nil : fidelity.Rows [] [] := by
  cases fidelity with
  | exact => rfl
  | likeness => exact .nil

/-- Rows that may be given back for the same rows may be given back for each other. -/
theorem rows_congr {rows a b : List Row} (h : fidelity.Rows rows a) (k : fidelity.Rows rows b) :
    fidelity.Rows a b := by
  cases fidelity with
  | exact => exact Eq.trans (Eq.symm h) k
  | likeness =>
    have hback : List.Forall₂ Row.Alike a rows := .flip (List.Forall₂.imp (fun _ _ => .symm) h)
    exact (Result.forall₂_comp hback k).imp fun _ _ ⟨_, hp, hq⟩ => hp.trans hq

/-- Two results that may be given back for the same one may be given back for each other. -/
theorem results_congr {result x y : Except Error (List Row)} (h : fidelity.Results result x)
    (k : fidelity.Results result y) : fidelity.Results x y := by
  cases h with
  | ok h =>
    cases k with
    | ok k => exact .ok (rows_congr h k)
  | error h =>
    cases k with
    | error k => exact .error (h.symm.trans k)

/-- A statement has effects on documents that may be had for each other. -/
theorem effects {a b : Document} (h : fidelity.Documents a b) {statement : Sql.Statement}
    (ht : fidelity.Takes statement) :
    Result.Alike Eq fidelity.Effects (statement.effect a) (statement.effect b) := by
  cases fidelity with
  | exact =>
    obtain rfl : a = b := h
    cases statement.effect a with
    | error e => exact .error rfl
    | ok effect =>
      refine .ok ⟨rfl, ?_⟩
      cases effect.store with
      | none => exact .none
      | some document => exact .some rfl
  | likeness =>
    have halike := Sql.Statement.effect_alike h ht
    generalize statement.effect a = x at halike
    generalize statement.effect b = y at halike
    cases halike with
    | ok h => exact .ok ⟨h.rows, h.store⟩
    | error h => exact .error h

end Fidelity

/-! ## Stores that do not fail -/

/-- A store that holds a document gives one back, and takes every document that may be had
for one that can be kept. -/
structure Storage.Backend.Unfailing (backend : Storage.Backend σ) (fidelity : Fidelity)
    (holds : σ → Document → Prop) : Prop extends backend.Retains fidelity holds where
  /-- Reading works. -/
  reads : ∀ {store document}, holds store document → ∃ found, backend.read store = .ok found
  /-- Writing works. -/
  writes : ∀ {store held document written}, holds store held → fidelity.Keeps document →
    fidelity.Documents document written → ∃ after, backend.write written store = (after, .ok ())

namespace Storage

/-- Memory gives back what it holds and takes every document. -/
theorem unfailing_memory :
    memory.Unfailing .exact fun store document => store = document where
  toRetains := retains_memory
  reads {store _} _ := ⟨store, rfl⟩
  writes {_ _ _ written} _ _ _ := ⟨written, rfl⟩

/-- Memory that can refuse does not fail as long as it is not told to. -/
theorem unfailing_switchable :
    switchable.Unfailing .exact fun store document =>
      store.document = document ∧ store.refusesReads = false ∧ store.refusesWrites = false where
  read hh hr := retains_switchable.read hh.1 hr
  stored {store held document written after} hh hk hd hw := by
    refine ⟨retains_switchable.stored hh.1 hk hd hw, ?_⟩
    simp only [switchable, hh.2.2, Bool.false_eq_true, if_false] at hw
    obtain ⟨rfl, _⟩ := Prod.mk.inj hw
    exact ⟨hh.2.1, rfl⟩
  refused {store held written after e} hh hw := by
    simp only [switchable, hh.2.2, Bool.false_eq_true, if_false] at hw
    cases (Prod.mk.inj hw).2
  reads {store document} hh := by
    refine ⟨store.document, ?_⟩
    simp only [switchable, hh.2.1, Bool.false_eq_true, if_false]
  writes {store held document written} hh _ _ := by
    refine ⟨{ store with document := written, writes := store.writes + 1 }, ?_⟩
    simp only [switchable, hh.2.2, Bool.false_eq_true, if_false]

/-- A file that can be written does not fail. -/
theorem JsonFile.unfailing {double : Json.NumberReading} (h : double.ReadsBack) (path : Path) :
    (backend (Json.Numeral.withIntegers double) path).Unfailing .likeness
      fun system document => Mirrors double path document system where
  toRetains := retains h path
  reads hm := hm.decodes.imp fun _ hd => hd.1
  writes hm _ _ := by
    obtain ⟨written, hw, _⟩ := write_of_writable hm.writable _
    exact ⟨written, hw⟩

end Storage

namespace Handle

variable {backend : Storage.Backend σ} {fidelity : Fidelity} {holds : σ → Document → Prop}
  {store : σ} {document a b : Document} {statement : Sql.Statement} {name : String}

/-- What a statement comes to in memory is what its effect on the document is. -/
theorem outcome_memory (statement : Sql.Statement) (document : Document) :
    outcome Storage.memory statement document =
      match statement.precheck with
      | .error e => (document, .error e)
      | .ok () =>
        match statement.effect document with
        | .error e => (document, statement.excuse (.error e))
        | .ok effect => (effect.store.getD document, .ok effect.rows) := by
  have hload : load Storage.memory document >>= statement.effect = statement.effect document := rfl
  rw [outcome]
  cases statement.precheck with
  | error e => rfl
  | ok =>
    simp only [hload]
    cases statement.effect document with
    | error e => rfl
    | ok effect =>
      obtain ⟨rows, stored⟩ := effect
      cases stored <;> rfl

/-- A store that does not fail does on a statement what memory does. -/
theorem outcome_holds (hb : backend.Unfailing fidelity holds) (hh : holds store document)
    (hk : fidelity.Keeps document) (ht : fidelity.Takes statement) :
    fidelity.Results (outcome Storage.memory statement document).2
        (outcome backend statement store).2 ∧
      holds (outcome backend statement store).1 (outcome Storage.memory statement document).1 ∧
      fidelity.Keeps (outcome Storage.memory statement document).1 := by
  rw [outcome_memory, outcome]
  cases hp : statement.precheck with
  | error e => exact ⟨.error rfl, hh, hk⟩
  | ok =>
    obtain ⟨found, hread⟩ := hb.reads hh
    have heffects := Fidelity.effects (hb.read hh hread) ht
    have hkeeps (effect : Effect) (he : statement.effect document = .ok effect) :
        fidelity.Keeps (effect.store.getD document) := Fidelity.keeps_effect ht hk hp he
    rw [load, hread, Except.mapError, Result.ok_bind]
    generalize statement.effect document = x at heffects hkeeps
    generalize statement.effect found = y at heffects
    cases heffects with
    | @error e f he =>
      obtain rfl : e = f := he
      refine ⟨?_, hh, hk⟩
      rcases statement.excuse_error e with he | he
      · simp only [he]
        exact .error rfl
      · simp only [he]
        exact .ok Fidelity.rows_nil
    | @ok mine other he =>
      have hmine := hkeeps mine rfl
      obtain ⟨rows, stored⟩ := mine
      obtain ⟨rows', stored'⟩ := other
      cases he.store with
      | none => exact ⟨.ok he.rows, hh, hk⟩
      | some hd =>
        obtain ⟨after, hw⟩ := hb.writes hh hmine hd
        simp only [commit, hw]
        exact ⟨.ok he.rows, hb.stored hh hmine hd hw, hmine⟩

/-! ## Statements on one table among others -/

/-- On documents with the same table under its name a statement comes to the same. -/
theorem outcome_congr (h : a.find? statement.table = b.find? statement.table) :
    (outcome Storage.memory statement a).2 = (outcome Storage.memory statement b).2 ∧
      (outcome Storage.memory statement a).1.find? statement.table =
        (outcome Storage.memory statement b).1.find? statement.table := by
  have heffects := Sql.Statement.effect_agrees h
  rw [outcome_memory, outcome_memory]
  cases statement.precheck with
  | error e => exact ⟨rfl, h⟩
  | ok =>
    generalize statement.effect a = x at heffects
    generalize statement.effect b = y at heffects
    cases heffects with
    | @error e f he =>
      obtain rfl : e = f := he
      exact ⟨rfl, h⟩
    | @ok mine other he =>
      refine ⟨congrArg Except.ok he.rows, ?_⟩
      obtain ⟨rows, stored⟩ := mine
      obtain ⟨rows', stored'⟩ := other
      cases he.store with
      | none => exact h
      | some hd => exact hd

/-- A statement on another table leaves a table as it was. -/
theorem find?_outcome_of_ne (hne : statement.table ≠ name) :
    (outcome Storage.memory statement document).1.find? name = document.find? name := by
  rw [outcome_memory]
  cases statement.precheck with
  | error e => rfl
  | ok =>
    cases he : statement.effect document with
    | error e => rfl
    | ok effect =>
      obtain ⟨rows, stored⟩ := effect
      cases stored with
      | none => rfl
      | some changed => exact (Document.stores_of_effect he).find?_of_ne hne

/-- What statements come to one after another on a store, with the store behind them. -/
def outcomes (backend : Storage.Backend σ) :
    List Sql.Statement → σ → List (Sql.Statement × Except Error (List Row)) × σ
  | [], store => ([], store)
  | statement :: rest, store =>
    let (store, result) := outcome backend statement store
    let (log, store) := outcomes backend rest store
    ((statement, result) :: log, store)

/-- They come to this on any handle. -/
theorem executeEach_eq (statements : List Sql.Statement) (handle : Handle) (store : σ) :
    (executeEach backend statements handle store).1 = (outcomes backend statements store).1 ∧
      (executeEach backend statements handle store).2.2 =
        (outcomes backend statements store).2 := by
  induction statements generalizing handle store with
  | nil => exact ⟨rfl, rfl⟩
  | cons statement rest ih =>
    have hi := ih (execute backend statement handle store).1
      (execute backend statement handle store).2.1
    rw [execute_snd] at hi
    simp only [executeEach, outcomes, execute_snd, hi, and_self]

/-- Two records of the same statements, with results that may be given back for each
other. -/
def LogsAgree (fidelity : Fidelity) :
    List (Sql.Statement × Except Error (List Row)) →
      List (Sql.Statement × Except Error (List Row)) → Prop :=
  List.Forall₂ fun x y => x.1 = y.1 ∧ fidelity.Results x.2 y.2

/-- A store that does not fail does on many statements what memory does. -/
theorem outcomes_holds (hb : backend.Unfailing fidelity holds) (hh : holds store document)
    (hk : fidelity.Keeps document) {statements : List Sql.Statement}
    (ht : ∀ statement ∈ statements, fidelity.Takes statement) :
    LogsAgree fidelity (outcomes Storage.memory statements document).1
        (outcomes backend statements store).1 ∧
      holds (outcomes backend statements store).2
        (outcomes Storage.memory statements document).2 := by
  induction statements generalizing store document with
  | nil => exact ⟨.nil, hh⟩
  | cons statement rest ih =>
    obtain ⟨hfirst, hrest⟩ := List.forall_mem_cons.mp ht
    obtain ⟨hresults, hholds, hkeeps⟩ := outcome_holds hb hh hk hfirst
    obtain ⟨hlogs, hlast⟩ := ih hholds hkeeps hrest
    exact ⟨.cons ⟨rfl, hresults⟩ hlogs, hlast⟩

/-- On a table the statements on it come to the same, and leave the same, among others and
by themselves. -/
theorem outcomes_filter (h : a.find? name = b.find? name) (statements : List Sql.Statement) :
    (outcomes Storage.memory statements a).1.filter (fun entry => entry.1.table = name) =
        (outcomes Storage.memory (statements.filter fun statement => statement.table = name) b).1 ∧
      (outcomes Storage.memory statements a).2.find? name =
        (outcomes Storage.memory (statements.filter fun statement => statement.table = name)
          b).2.find? name := by
  induction statements generalizing a b with
  | nil => exact ⟨rfl, h⟩
  | cons statement rest ih =>
    by_cases ht : statement.table = name
    · subst ht
      obtain ⟨hresult, htable⟩ := outcome_congr h
      obtain ⟨hlogs, hlast⟩ := ih htable
      rw [List.filter_cons_of_pos (by simp)]
      simp only [outcomes]
      rw [List.filter_cons_of_pos (by simp), hresult, hlogs]
      exact ⟨rfl, hlast⟩
    · obtain ⟨hlogs, hlast⟩ := ih ((find?_outcome_of_ne ht).trans h)
      rw [List.filter_cons_of_neg (by simpa using ht)]
      simp only [outcomes]
      rw [List.filter_cons_of_neg (by simpa using ht)]
      exact ⟨hlogs, hlast⟩

/-- Statements leave the same document in every order in which those on each table stay in
theirs. -/
theorem outcomes_rearranged {statements others : List Sql.Statement}
    (h : ∀ name, statements.filter (fun statement => statement.table = name) =
      others.filter fun statement => statement.table = name) (document : Document) :
    (outcomes Storage.memory statements document).2 =
      (outcomes Storage.memory others document).2 := by
  refine Document.ext_find? fun name => ?_
  have hname : document.find? name = document.find? name := rfl
  rw [(outcomes_filter hname statements).2, h name, ← (outcomes_filter hname others).2]

/-- Two statements on different tables can be exchanged among those on any one table. -/
theorem filter_exchanged {first second : Sql.Statement} (h : first.table ≠ second.table)
    (name : String) :
    [first, second].filter (fun statement => decide (statement.table = name)) =
      [second, first].filter fun statement => decide (statement.table = name) := by
  by_cases hf : first.table = name
  · have hs : second.table ≠ name := fun hs => h (hf.trans hs.symm)
    simp [hf, hs]
  · simp [hf, List.filter_cons]

/-! ## On any store that does not fail -/

section

variable {log other more : List (Sql.Statement × Except Error (List Row))}

/-- Records that agree do so on the statements of each table. -/
theorem LogsAgree.filter (h : LogsAgree fidelity log other) (name : String) :
    LogsAgree fidelity (log.filter fun entry => entry.1.table = name)
      (other.filter fun entry => entry.1.table = name) := by
  induction h with
  | nil => exact .nil
  | @cons x y _ _ hxy _ ih =>
    rw [List.filter_cons, List.filter_cons, ← hxy.1]
    split
    · exact .cons hxy ih
    · exact ih

/-- Records that agree with the same one agree with each other. -/
theorem LogsAgree.congr (h : LogsAgree fidelity log other) (k : LogsAgree fidelity log more) :
    LogsAgree fidelity other more := by
  induction h generalizing more with
  | nil =>
    cases k
    exact .nil
  | @cons x y _ _ hxy _ ih =>
    cases k with
    | cons hxz hrest =>
      exact .cons ⟨hxy.1.symm.trans hxz.1, Fidelity.results_congr hxy.2 hxz.2⟩ (ih hrest)

end

/-- What is read where the same table is held has the same columns, and rows that may be
given back for each other. -/
theorem find?_read (hb : backend.Unfailing fidelity holds) {left : σ} (ha : holds store a)
    (hl : holds left b) (h : a.find? name = b.find? name) :
    ∃ found other, backend.read store = .ok found ∧ backend.read left = .ok other ∧
      Option.Rel (fun s t : Table => s.schema = t.schema ∧ fidelity.Rows s.rows t.rows)
        (found.find? name) (other.find? name) := by
  obtain ⟨found, hfound⟩ := hb.reads ha
  obtain ⟨other, hother⟩ := hb.reads hl
  refine ⟨found, other, hfound, hother, ?_⟩
  have hmine := Fidelity.find?_rel (hb.read ha hfound) name
  have hyours := Fidelity.find?_rel (hb.read hl hother) name
  rw [h] at hmine
  generalize b.find? name = table at hmine hyours
  generalize found.find? name = x at hmine
  generalize other.find? name = y at hyours
  cases hmine with
  | none =>
    cases hyours
    exact .none
  | some hm =>
    cases hyours with
    | some hy => exact .some ⟨hm.1.symm.trans hy.1, Fidelity.rows_congr hm.2 hy.2⟩

/-- The statements on a table come to the same, and leave the same of it, among others and
by themselves. -/
theorem executeEach_filter (hb : backend.Unfailing fidelity holds) (hh : holds store document)
    (hk : fidelity.Keeps document) (handle : Handle) {statements : List Sql.Statement}
    (ht : ∀ statement ∈ statements, fidelity.Takes statement) (name : String) :
    LogsAgree fidelity
        ((executeEach backend statements handle store).1.filter fun entry => entry.1.table = name)
        (executeEach backend (statements.filter fun statement => statement.table = name) handle
          store).1 ∧
      ∃ found other,
        backend.read (executeEach backend statements handle store).2.2 = .ok found ∧
        backend.read (executeEach backend
          (statements.filter fun statement => statement.table = name) handle store).2.2 =
            .ok other ∧
        Option.Rel (fun s t : Table => s.schema = t.schema ∧ fidelity.Rows s.rows t.rows)
          (found.find? name) (other.find? name) := by
  have halone : ∀ statement ∈ statements.filter fun statement => statement.table = name,
      fidelity.Takes statement := fun statement hm => ht statement (List.mem_of_mem_filter hm)
  obtain ⟨hlogs, hholds⟩ := outcomes_holds hb hh hk ht
  obtain ⟨hlogsAlone, hholdsAlone⟩ := outcomes_holds hb hh hk halone
  have hsame : document.find? name = document.find? name := rfl
  obtain ⟨hfilter, htable⟩ := outcomes_filter hsame statements
  rw [(executeEach_eq _ handle store).1, (executeEach_eq _ handle store).1,
    (executeEach_eq _ handle store).2, (executeEach_eq _ handle store).2]
  refine ⟨?_, find?_read hb hholds hholdsAlone htable⟩
  have hmemory := hlogs.filter name
  rw [hfilter] at hmemory
  exact hmemory.congr hlogsAlone

/-- Two statements on different tables come to the same in either order. -/
theorem executeEach_exchange (hb : backend.Unfailing fidelity holds) (hh : holds store document)
    (hk : fidelity.Keeps document) (handle : Handle) {first second : Sql.Statement}
    (hf : fidelity.Takes first) (hs : fidelity.Takes second) (h : first.table ≠ second.table) :
    (∃ result other result' other',
      (executeEach backend [first, second] handle store).1 = [(first, result), (second, other)] ∧
      (executeEach backend [second, first] handle store).1 = [(second, other'), (first, result')] ∧
      fidelity.Results result result' ∧ fidelity.Results other other') ∧
    ∃ stored, holds (executeEach backend [first, second] handle store).2.2 stored ∧
      holds (executeEach backend [second, first] handle store).2.2 stored := by
  obtain ⟨hfirst, hholds, hkeeps⟩ := outcome_holds hb hh hk hf
  obtain ⟨hsecond, hboth, _⟩ := outcome_holds hb hholds hkeeps hs
  obtain ⟨hsecond', hholds', hkeeps'⟩ := outcome_holds hb hh hk hs
  obtain ⟨hfirst', hboth', _⟩ := outcome_holds hb hholds' hkeeps' hf
  have hsame : (outcome Storage.memory first (outcome Storage.memory second document).1).1 =
      (outcome Storage.memory second (outcome Storage.memory first document).1).1 :=
    (outcomes_rearranged (filter_exchanged h) document).symm
  rw [(executeEach_eq _ handle store).1, (executeEach_eq _ handle store).1,
    (executeEach_eq _ handle store).2, (executeEach_eq _ handle store).2]
  refine ⟨⟨_, _, _, _, rfl, rfl, ?_, ?_⟩, _, hboth, hsame ▸ hboth'⟩
  · have hunmoved : (outcome Storage.memory first (outcome Storage.memory second document).1).2 =
        (outcome Storage.memory first document).2 :=
      (outcome_congr (find?_outcome_of_ne h.symm)).1
    rw [hunmoved] at hfirst'
    exact Fidelity.results_congr hfirst hfirst'
  · have hunmoved : (outcome Storage.memory second (outcome Storage.memory first document).1).2 =
        (outcome Storage.memory second document).2 :=
      (outcome_congr (find?_outcome_of_ne h)).1
    rw [hunmoved] at hsecond
    exact Fidelity.results_congr hsecond hsecond'

end Handle

open Handle

/-- On a store that does not fail, and for every table, the statements on it give back what
they give back without the statements on other tables, and the table is there or not, with
the same columns and rows. Two statements on different tables give back the same in either
order, and the same document is stored. -/
theorem tables_independent {backend : Storage.Backend σ} {fidelity : Fidelity}
    {holds : σ → Document → Prop} (hb : backend.Unfailing fidelity holds) {store : σ}
    {document : Document} (hh : holds store document) (hk : fidelity.Keeps document)
    (handle : Handle) :
    (∀ (statements : List Sql.Statement) (name : String),
      (∀ statement ∈ statements, fidelity.Takes statement) →
      let whole := executeEach backend statements handle store
      let alone := executeEach backend
        (statements.filter fun statement => statement.table = name) handle store
      LogsAgree fidelity (whole.1.filter fun entry => entry.1.table = name) alone.1 ∧
      ∃ found other, backend.read whole.2.2 = .ok found ∧ backend.read alone.2.2 = .ok other ∧
        Option.Rel (fun s t : Table => s.schema = t.schema ∧ fidelity.Rows s.rows t.rows)
          (found.find? name) (other.find? name)) ∧
    ∀ first second : Sql.Statement, fidelity.Takes first → fidelity.Takes second →
      first.table ≠ second.table →
      let one := executeEach backend [first, second] handle store
      let two := executeEach backend [second, first] handle store
      (∃ result other result' other', one.1 = [(first, result), (second, other)] ∧
        two.1 = [(second, other'), (first, result')] ∧
        fidelity.Results result result' ∧ fidelity.Results other other') ∧
      ∃ stored, holds one.2.2 stored ∧ holds two.2.2 stored := by
  exact ⟨fun statements name ht => executeEach_filter hb hh hk handle ht name,
    fun first second hf hs h => executeEach_exchange hb hh hk handle hf hs h⟩

/-- An insertion goes on as if no other table were made and removed around it. -/
theorem tables_independent_of_create :
    let document : Document := ⟨[("t", .ofSchema [⟨"a", .text⟩])], List.pairwise_singleton _ _⟩
    let insert : Sql.Statement := .insert ⟨"t", .all, [[.text "x"]], .all⟩
    let create : Sql.Statement := .create ⟨"u", false, []⟩
    let drop : Sql.Statement := .drop ⟨"u", false⟩
    let handle : Handle := ⟨.default, []⟩
    LogsAgree .exact
        ((executeEach Storage.memory [drop, create, insert, drop] handle document).1.filter
          fun entry => entry.1.table = "t")
        [(insert, .ok [⟨[("a", .text "x")]⟩])] ∧
      (executeEach Storage.memory [create, insert] handle document).2.2 =
        (executeEach Storage.memory [insert, create] handle document).2.2 := by
  intro document insert create drop handle
  obtain ⟨halone, hexchange⟩ :=
    tables_independent Storage.unfailing_memory (rfl : document = document) trivial handle
  have hlog : (executeEach Storage.memory [insert] handle document).1 =
      [(insert, .ok [⟨[("a", .text "x")]⟩])] := by
    decide +kernel
  constructor
  · have hlogs := (halone [drop, create, insert, drop] "t" fun _ _ => trivial).1
    exact hlog ▸ hlogs
  · obtain ⟨_, stored, hone, htwo⟩ := hexchange create insert trivial trivial (by decide)
    exact hone.trans htwo.symm

end EmbeddedSql
