import EmbeddedSql.Proofs.Session.Failure
import EmbeddedSql.Proofs.Sql.Placeholders

/-!
# Scripts run as their statements do

All statements of a script are read before one is run, and then they are run as they
stand up to the first one that fails. A template runs as the script that it becomes, and
becomes itself where no placeholder stands outside quotes.
-/

namespace EmbeddedSql

/-! ## Reading all of them -/

/-- If a function fails somewhere in a list there is a place where it does so first, and
it fails there for the list. -/
theorem Result.exists_mapM_error {α β ε : Type} {f : α → Except ε β} {list : List α} {a : α}
    {e : ε} (ha : a ∈ list) (h : f a = .error e) :
    ∃ front first rest error, list = front ++ first :: rest ∧
      (∀ other ∈ front, ∃ b, f other = .ok b) ∧ f first = .error error ∧
      list.mapM f = .error error := by
  induction list with
  | nil => cases ha
  | cons head tail ih =>
    cases hf : f head with
    | error error =>
      refine ⟨[], head, tail, error, rfl, fun other ho => absurd ho List.not_mem_nil, hf, ?_⟩
      rw [List.mapM_cons, hf]
      rfl
    | ok b =>
      have htail : a ∈ tail := by
        rcases List.mem_cons.mp ha with rfl | htail
        · rw [hf] at h
          cases h
        · exact htail
      obtain ⟨front, first, rest, error, rfl, hfront, hfirst, hall⟩ := ih htail
      refine ⟨head :: front, first, rest, error, rfl, ?_, hfirst, ?_⟩
      · exact List.forall_mem_cons.mpr ⟨⟨b, hf⟩, hfront⟩
      · rw [List.mapM_cons, hf, hall]
        rfl

/-- If it fails nowhere in a list it has results for the list. -/
theorem Result.exists_mapM_ok {α β ε : Type} {f : α → Except ε β} {list : List α}
    (h : ∀ a ∈ list, ∃ b, f a = .ok b) : ∃ results, list.mapM f = .ok results := by
  induction list with
  | nil => exact ⟨[], rfl⟩
  | cons head tail ih =>
    obtain ⟨⟨b, hb⟩, htail⟩ := List.forall_mem_cons.mp h
    obtain ⟨results, hresults⟩ := ih htail
    refine ⟨b :: results, ?_⟩
    rw [List.mapM_cons, hb, hresults]
    rfl

/-! ## Templates without placeholders -/

namespace Sql

/-- A template without placeholders becomes itself. -/
theorem bindTemplate_of_markless {template : List Char} (h : Template.Markless none template)
    (parameters : List Value) : bindTemplate template parameters = .ok template := by
  have hparts : Template.parts template = template.map .char := h.partsFrom_eq
  rw [bindTemplate, Template.bind, hparts, Template.fill_map_char]
  rfl

end Sql

/-! ## Running one after another -/

namespace Storage

variable {σ : Type}

/-- A write that fails leaves what can be read. -/
def Backend.Steady (backend : Backend σ) : Prop :=
  ∀ {document : Document} {store after : σ} {e : StorageError},
    backend.write document store = (after, .error e) → backend.read after = backend.read store

/-- A write that stores nothing when it fails leaves what can be read. -/
theorem Backend.Atomic.steady {backend : Backend σ} (h : backend.Atomic) : backend.Steady :=
  fun hw => congrArg backend.read (h hw)

end Storage

namespace Handle

variable {σ : Type} {backend : Storage.Backend σ}

/-- Statements are executed one after another and succeed, each on the handle and the
store that the ones before it have left. -/
inductive Runs (backend : Storage.Backend σ) :
    List Sql.Statement → Handle → σ → List (List Row) → Handle → σ → Prop where
  /-- There is none. -/
  | nil (handle : Handle) (store : σ) : Runs backend [] handle store [] handle store
  /-- The first one succeeds, and so do the others. -/
  | cons {statement : Sql.Statement} {rest : List Sql.Statement} {handle between after : Handle}
    {store middle left : σ} {rows : List Row} {results : List (List Row)}
    (first : execute backend statement handle store = (between, middle, .ok rows))
    (others : Runs backend rest between middle results after left) :
    Runs backend (statement :: rest) handle store (rows :: results) after left

/-- How statements that are executed one after another up to the first one that fails
come to an end. -/
inductive Ends (backend : Storage.Backend σ) (statements : List Sql.Statement) (handle : Handle)
    (store : σ) : Handle × σ × Except BatchError (List (List Row)) → Prop where
  /-- All of them succeed. -/
  | all {results : List (List Row)} {after : Handle} {left : σ}
    (run : Runs backend statements handle store results after left) :
    Ends backend statements handle store (after, left, .ok results)
  /-- One fails behind others that succeed, and what these have stored is kept unless the
  backend itself has failed to keep it. -/
  | stopped {front : List Sql.Statement} {statement : Sql.Statement} {rest : List Sql.Statement}
    {results : List (List Row)} {between after : Handle} {middle left : σ} {e : Error}
    (split : statements = front ++ statement :: rest)
    (run : Runs backend front handle store results between middle)
    (failing : execute backend statement between middle = (after, left, .error e))
    (kept : left = middle ∨ ∃ document f, backend.write document middle = (left, .error f))
    (read : backend.Steady → backend.read left = backend.read middle) :
    Ends backend statements handle store (after, left, .error ⟨results, e⟩)

variable {handle between after : Handle} {store middle left : σ}

/-- The statements that succeed run in the loop as they do by themselves. -/
theorem Runs.executeAll_append {front : List Sql.Statement} {results : List (List Row)}
    (h : Runs backend front handle store results between middle) (rest : List Sql.Statement)
    (done : List (List Row)) :
    executeAll backend done (front ++ rest) handle store =
      executeAll backend (done ++ results) rest between middle := by
  induction h generalizing done with
  | nil handle store => rw [List.nil_append, List.append_nil]
  | @cons statement others handle _ _ store _ _ rows results first _ ih =>
    rw [List.cons_append, executeAll, first]
    simp only
    rw [ih (done ++ [rows]), List.append_assoc, List.singleton_append]

/-- A statement that fails leaves what is stored, as far as the backend does. -/
theorem kept_of_error {statement : Sql.Statement} {e : Error}
    (h : execute backend statement handle store = (after, left, .error e)) :
    left = store ∨ ∃ document f, backend.write document store = (left, .error f) := by
  have hr : outcome backend statement store = (left, .error e) := by
    rw [← execute_snd statement handle store, h]
  exact outcome_error hr

/-- Statements that are executed one after another all succeed, or there is a first one
that fails. -/
theorem exists_runs (statements : List Sql.Statement) (handle : Handle) (store : σ) :
    (∃ results after left, Runs backend statements handle store results after left) ∨
      ∃ front statement rest results between middle after left e,
        statements = front ++ statement :: rest ∧
        Runs backend front handle store results between middle ∧
        execute backend statement between middle = (after, left, .error e) := by
  induction statements generalizing handle store with
  | nil => exact .inl ⟨[], handle, store, .nil handle store⟩
  | cons statement rest ih =>
    rcases hr : execute backend statement handle store with ⟨between, middle, result⟩
    cases result with
    | error e =>
      exact .inr ⟨[], statement, rest, [], handle, store, between, middle, e, rfl,
        .nil handle store, hr⟩
    | ok rows =>
      rcases ih between middle with ⟨results, after, left, hruns⟩ |
        ⟨front, failing, behind, results, last, there, after, left, e, rfl, hruns, hfails⟩
      · exact .inl ⟨rows :: results, after, left, .cons hr hruns⟩
      · exact .inr ⟨statement :: front, failing, behind, rows :: results, last, there, after, left,
          e, rfl, .cons hr hruns, hfails⟩

/-- The loop comes to the end to which the statements come. -/
theorem ends_executeAll (statements : List Sql.Statement) (handle : Handle) (store : σ) :
    Ends backend statements handle store (executeAll backend [] statements handle store) := by
  rcases @exists_runs σ backend statements handle store with
    ⟨results, after, left, hruns⟩ |
    ⟨front, statement, rest, results, between, middle, after, left, e, rfl, hruns, hfails⟩
  · have hall := hruns.executeAll_append [] []
    rw [List.append_nil, List.nil_append] at hall
    rw [hall]
    exact .all hruns
  · have hkept := kept_of_error hfails
    rw [hruns.executeAll_append, List.nil_append, executeAll, hfails]
    refine .stopped rfl hruns hfails hkept fun hsteady => ?_
    rcases hkept with rfl | ⟨document, f, hw⟩
    · rfl
    · exact hsteady hw

/-- What running texts comes to on a handle and a store. -/
structure Batches (backend : Storage.Backend σ) (handle : Handle) (store : σ) : Prop where
  /-- If a statement of a script cannot be read, nothing is run, and the error is that of
  the first one that cannot. -/
  unread : ∀ {script text e}, text ∈ Sql.Script.statements script →
    Sql.parseStatement text = .error e →
    ∃ front first rest error, Sql.Script.statements script = front ++ first :: rest ∧
      (∀ other ∈ front, ∃ statement, Sql.parseStatement other = .ok statement) ∧
      Sql.parseStatement first = .error error ∧
      runAll backend script handle store = (handle, store, .error ⟨[], error⟩)
  /-- If all can be read, they are executed one after another up to the first one that
  fails. -/
  read : ∀ {script},
    (∀ text ∈ Sql.Script.statements script, ∃ statement,
      Sql.parseStatement text = .ok statement) →
    ∃ statements, Sql.parseScript script = .ok statements ∧
      Ends backend statements handle store (runAll backend script handle store)
  /-- If parameters cannot be written into a template, nothing is run. -/
  unbound : ∀ {template parameters e}, Sql.bindTemplate template parameters = .error e →
    run backend template parameters handle store = (handle, store, .error e)
  /-- A template runs as the script that it becomes, with the rows of the last statement. -/
  bound : ∀ {template parameters script after left results},
    Sql.bindTemplate template parameters = .ok script →
    runAll backend script handle store = (after, left, .ok results) →
    run backend template parameters handle store = (after, left, .ok (results.getLastD []))
  /-- It fails as that script does. -/
  failing : ∀ {template parameters script after left failure},
    Sql.bindTemplate template parameters = .ok script →
    runAll backend script handle store = (after, left, .error failure) →
    run backend template parameters handle store = (after, left, .error failure.error)
  /-- Nothing is run of a script without statements, and there are no rows. -/
  empty : ∀ {template parameters script}, Sql.bindTemplate template parameters = .ok script →
    Sql.Script.statements script = [] →
    run backend template parameters handle store = (handle, store, .ok [])

/-- What running a script or a template comes to, on every handle and every store. -/
theorem batches (backend : Storage.Backend σ) (handle : Handle) (store : σ) :
    Batches backend handle store where
  unread {script text e} ht he := by
    obtain ⟨front, first, rest, error, hsplit, hfront, hfirst, hall⟩ :=
      Result.exists_mapM_error ht he
    refine ⟨front, first, rest, error, hsplit, hfront, hfirst, ?_⟩
    rw [runAll, Sql.parseScript, hall]
  read {script} h := by
    obtain ⟨statements, hstatements⟩ := Result.exists_mapM_ok h
    have hparse : Sql.parseScript script = .ok statements := hstatements
    refine ⟨statements, hparse, ?_⟩
    rw [runAll, hparse]
    exact ends_executeAll statements handle store
  unbound hb := by rw [run, hb]
  bound hb hr := by
    rw [run_eq, hb]
    simp only [hr]
  failing hb hr := by
    rw [run_eq, hb]
    simp only [hr]
  empty {template parameters script} hb hs := by
    have hparse : Sql.parseScript script = .ok [] := by
      rw [Sql.parseScript, hs]
      rfl
    rw [run, hb]
    simp only [hparse]
    rfl

end Handle

/-- A script is read as a whole and then run as its statements are run by themselves, and
a template as the script that it becomes, on any handle and any store. A template without
a placeholder outside quotes becomes itself, whatever the parameters are. -/
theorem batches_and_templates {σ : Type} (backend : Storage.Backend σ) :
    (∀ (handle : Handle) (store : σ), Handle.Batches backend handle store) ∧
      ∀ {template : List Char}, Sql.Template.Markless none template → ∀ parameters : List Value,
        Sql.bindTemplate template parameters = .ok template :=
  ⟨Handle.batches backend, fun h parameters => Sql.bindTemplate_of_markless h parameters⟩

/-- The second statement of a script fails, and the third one is not run. A template with
a dollar sign in quotes becomes itself. -/
theorem batches_and_templates_of_failure :
    let script : List Char := "CREATE TABLE t (a TEXT);SELECT * FROM u;DROP TABLE t".toList
    let batch := Handle.runAll Storage.memory script ⟨.default, []⟩ .empty
    (∃ statements, Sql.parseScript script = .ok statements ∧
      Handle.Ends Storage.memory statements ⟨.default, []⟩ .empty batch) ∧
    batch.2.2.mapError (fun failure => (failure.results.length, failure.error)) =
      .error (1, .catalog (.tableNotFound "u")) ∧
    Sql.bindTemplate "SELECT '$1'".toList [] = .ok "SELECT '$1'".toList := by
  intro script batch
  obtain ⟨hbatches, htemplates⟩ := batches_and_templates Storage.memory
  have hread : ∀ text ∈ Sql.Script.statements script,
      ∃ statement, Sql.parseStatement text = .ok statement := by
    have hall : (Sql.Script.statements script).all
        (fun text => (Sql.parseStatement text).isOk) = true := by decide +kernel
    intro text hm
    have hok := List.all_eq_true.mp hall text hm
    cases hp : Sql.parseStatement text with
    | ok statement => exact ⟨statement, rfl⟩
    | error e => rw [hp] at hok; cases hok
  have hquoted : Sql.Template.Markless none "SELECT '$1'".toList := by
    intro front digit back he _
    obtain ⟨rfl, -, -⟩ : front = "SELECT '".toList ∧ digit = '1' ∧ back = ['\''] := by
      simpa [List.cons_eq_append_iff] using he
    decide
  exact ⟨(hbatches _ _).read hread, by decide +kernel, htemplates hquoted []⟩

end EmbeddedSql
