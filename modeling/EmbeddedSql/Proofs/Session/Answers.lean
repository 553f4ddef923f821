import EmbeddedSql.Proofs.Session.Alone
import EmbeddedSql.Proofs.Session.Scripts

/-!
# Answers do not depend on the handle

On any store, what a statement gives back and leaves in the store is a function
of the store alone. The tables that a handle knows only decide whether the
document is looked into before it is read: a table that is missing is missed
either way, with the same error.
-/

namespace EmbeddedSql

/-- An error may be excused; then there are no rows. -/
theorem Sql.Statement.excuse_error (statement : Statement) (e : Error) :
    statement.excuse (.error e) = .error e ∨ statement.excuse (.error e) = .ok [] := by
  unfold excuse
  split
  next table he =>
    obtain rfl := Except.error.inj he
    cases statement.mayMiss with
    | true => exact .inr rfl
    | false => exact .inl rfl
  next => exact .inl rfl

namespace Handle

variable {σ : Type} (backend : Storage.Backend σ)

/-- Stores what an effect wants stored: the store afterwards, and the rows unless
writing fails. -/
def commit (effect : Effect) (store : σ) : σ × Except Error (List Row) :=
  match effect.store with
  | none => (store, .ok effect.rows)
  | some document =>
    match backend.write document store with
    | (store, .ok ()) => (store, .ok effect.rows)
    | (store, .error e) => (store, .error (.storage e))

/-- What a statement comes to on a store: the store afterwards and the result. -/
def outcome (statement : Sql.Statement) (store : σ) : σ × Except Error (List Row) :=
  match statement.precheck with
  | .error e => (store, .error e)
  | .ok () =>
    match load backend store >>= statement.effect with
    | .error e => (store, statement.excuse (.error e))
    | .ok effect => commit backend effect store

variable {backend} {statement : Sql.Statement} {store : σ}

/-- Performing a statement comes to its outcome on any handle. -/
theorem perform_snd (hp : statement.precheck = .ok ()) (handle : Handle) :
    ((perform backend statement handle store).2.1,
      statement.excuse (perform backend statement handle store).2.2) =
      outcome backend statement store := by
  rw [perform, outcome, hp]
  cases load backend store >>= statement.effect with
  | error e => rfl
  | ok effect =>
    obtain ⟨rows, changed⟩ := effect
    cases changed with
    | none => rfl
    | some document =>
      simp only [commit]
      obtain ⟨store, result⟩ := backend.write document store
      cases result <;> rfl

/-- A statement whose table is looked up in vain would have missed it anyway. -/
theorem outcome_of_find {handle : Handle} {e : Error}
    (h : find backend statement handle store = .error e) :
    outcome backend statement store = (store, statement.excuse (.error e)) := by
  have hlookup (ha : statement.AsksGuard)
      (h : (if statement.table ∈ handle.known then Except.ok handle
        else do
          let document ← load backend store
          if document.contains statement.table then .ok (handle.register statement.table)
          else .error (.catalog (.tableNotFound statement.table))) = .error e) :
      outcome backend statement store = (store, statement.excuse (.error e)) := by
    split at h
    · cases h
    · rw [outcome, Sql.Statement.precheck_of_asksGuard ha]
      cases hl : load backend store with
      | error f =>
        rw [hl] at h
        obtain rfl : f = e := Except.error.inj h
        rfl
      | ok document =>
        rw [hl, Result.ok_bind] at h
        split at h
        · cases h
        next hc =>
          obtain rfl := Except.error.inj h
          rw [Result.ok_bind, Sql.Statement.effect_of_missing ha (Bool.eq_false_iff.mpr hc)]
  cases statement with
  | create s => cases h
  | select s => exact hlookup trivial h
  | insert s => exact hlookup trivial h
  | update s => exact hlookup trivial h
  | delete s => exact hlookup trivial h
  | drop s => exact hlookup trivial h

/-- A statement comes to its outcome on any handle. -/
theorem execute_snd (statement : Sql.Statement) (handle : Handle) (store : σ) :
    (execute backend statement handle store).2 = outcome backend statement store := by
  rw [execute]
  cases hp : statement.precheck with
  | error e => rw [outcome, hp]
  | ok =>
    simp only
    cases hf : find backend statement handle store with
    | error e => exact (outcome_of_find hf).symm
    | ok found => exact perform_snd hp found

/-- Only a removal of a missing table is excused. -/
theorem excuse_error_eq_ok {e : Error} {rows : List Row}
    (h : statement.excuse (.error e) = .ok rows) :
    ∃ s table, statement = .drop s ∧ e = .catalog (.tableNotFound table) := by
  unfold Sql.Statement.excuse at h
  split at h
  next table he =>
    obtain rfl := Except.error.inj he
    split at h
    next hm =>
      cases statement with
      | drop s => exact ⟨s, table, rfl, rfl⟩
      | select => cases hm
      | insert => cases hm
      | update => cases hm
      | delete => cases hm
      | create => cases hm
    next => cases h
  next => cases h

/-- A statement that succeeds is the removal of a missing table, or it has an effect,
and what the effect wants stored is written. -/
theorem outcome_ok {after : σ} {rows : List Row}
    (h : outcome backend statement store = (after, .ok rows)) :
    statement.precheck = .ok () ∧ ∃ document, backend.read store = .ok document ∧
      ((∃ s, statement = .drop s ∧ document.contains s.table = false ∧ after = store) ∨
        ∃ effect, statement.effect document = .ok effect ∧ effect.rows = rows ∧
          (effect.store = none ∧ after = store ∨
            ∃ changed, effect.store = some changed ∧
              backend.write changed store = (after, .ok ()))) := by
  rw [outcome] at h
  cases hp : statement.precheck with
  | error e =>
    rw [hp] at h
    cases h
  | ok =>
    rw [hp, load] at h
    refine ⟨rfl, ?_⟩
    cases hr : backend.read store with
    | error e =>
      rw [hr] at h
      cases h
    | ok document =>
      rw [hr, Except.mapError, Result.ok_bind] at h
      refine ⟨document, rfl, ?_⟩
      cases he : statement.effect document with
      | error e =>
        rw [he] at h
        -- Only the removal of a missing table succeeds after an error.
        obtain ⟨s, table, rfl, rfl⟩ := excuse_error_eq_ok (Prod.mk.inj h).2
        refine .inl ⟨s, rfl, ?_, (Prod.mk.inj h).1.symm⟩
        simp only [Sql.Statement.effect, Sql.Statement.dropIn] at he
        split at he
        · cases he
        next hc => exact Bool.eq_false_iff.mpr hc
      | ok effect =>
        rw [he] at h
        obtain ⟨found, wanted⟩ := effect
        cases wanted with
        | none => exact .inr ⟨_, rfl, by cases h; rfl, .inl ⟨rfl, (Prod.mk.inj h).1.symm⟩⟩
        | some changed =>
          simp only [commit] at h
          split at h
          next written hw =>
            obtain ⟨rfl, hrows⟩ := Prod.mk.inj h
            exact .inr ⟨_, rfl, Except.ok.inj hrows, .inr ⟨changed, rfl, hw⟩⟩
          next => cases h

/-- A statement that fails leaves the store, but for a write that failed. -/
theorem outcome_error {after : σ} {e : Error}
    (h : outcome backend statement store = (after, .error e)) :
    after = store ∨ ∃ changed f, backend.write changed store = (after, .error f) := by
  rw [outcome] at h
  split at h
  · exact .inl (Prod.mk.inj h).1.symm
  · split at h
    · exact .inl (Prod.mk.inj h).1.symm
    next effect _ =>
      obtain ⟨rows, wanted⟩ := effect
      cases wanted with
      | none => exact .inl (Prod.mk.inj h).1.symm
      | some changed =>
        simp only [commit] at h
        split at h
        · cases h
        next written f hw =>
          obtain ⟨rfl, _⟩ := Prod.mk.inj h
          exact .inr ⟨changed, f, hw⟩

/-- Statements one after another come to the same on all handles. -/
theorem executeAll_snd (statements : List Sql.Statement) (done : List (List Row))
    (handle other : Handle) (store : σ) :
    (executeAll backend done statements handle store).2 =
      (executeAll backend done statements other store).2 := by
  induction statements generalizing done handle other store with
  | nil => rfl
  | cons statement rest ih =>
    have hsame : (execute backend statement handle store).2 =
        (execute backend statement other store).2 :=
      (execute_snd statement handle store).trans (execute_snd statement other store).symm
    rw [executeAll, executeAll]
    generalize execute backend statement handle store = first at hsame
    generalize execute backend statement other store = second at hsame
    obtain ⟨handle, store, result⟩ := first
    obtain ⟨other, store', result'⟩ := second
    obtain ⟨rfl, rfl⟩ := Prod.mk.inj hsame
    cases result with
    | error e => rfl
    | ok rows => exact ih (done ++ [rows]) handle other store

/-- So does a script. -/
theorem runAll_snd (script : List Char) (handle other : Handle) (store : σ) :
    (runAll backend script handle store).2 = (runAll backend script other store).2 := by
  rw [runAll, runAll]
  cases Sql.parseScript script with
  | error e => rfl
  | ok statements => exact executeAll_snd statements [] handle other store

/-- So does a template with its parameters. -/
theorem run_snd (template : List Char) (parameters : List Value) (handle other : Handle)
    (store : σ) :
    (run backend template parameters handle store).2 =
      (run backend template parameters other store).2 := by
  rw [run_eq, run_eq]
  cases Sql.bindTemplate template parameters with
  | error e => rfl
  | ok script =>
    have hsame : (runAll backend script handle store).2 = (runAll backend script other store).2 :=
      runAll_snd script handle other store
    simp only
    generalize runAll backend script handle store = first at hsame
    generalize runAll backend script other store = second at hsame
    obtain ⟨handle, store, result⟩ := first
    obtain ⟨other, store', result'⟩ := second
    obtain ⟨rfl, rfl⟩ := Prod.mk.inj hsame
    cases result <;> rfl

end Handle

end EmbeddedSql
