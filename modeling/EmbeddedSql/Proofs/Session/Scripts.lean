import EmbeddedSql.Session.Handle

/-!
# Templates run as the scripts that they become

The statements of a template are run in a loop of its own, which keeps the rows of the
last statement only. It goes as far as the loop that keeps the rows of all of them, and
ends in the same way.
-/

namespace EmbeddedSql.Handle

variable {σ : Type} {backend : Storage.Backend σ}

/-- Keeping the last rows is keeping all of them and taking the last. -/
theorem executeLast_eq (statements : List Sql.Statement) (done : List (List Row))
    (handle : Handle) (store : σ) :
    executeLast backend (done.getLastD []) statements handle store =
      match executeAll backend done statements handle store with
      | (handle, store, .ok results) => (handle, store, .ok (results.getLastD []))
      | (handle, store, .error e) => (handle, store, .error e.error) := by
  induction statements generalizing done handle store with
  | nil => rfl
  | cons statement rest ih =>
    rw [executeLast, executeAll]
    obtain ⟨after, left, result⟩ := execute backend statement handle store
    cases result with
    | error e => rfl
    | ok rows =>
      have hlast : (done ++ [rows]).getLastD [] = rows := List.getLastD_concat
      have hi := ih (done ++ [rows]) after left
      rw [hlast] at hi
      exact hi

/-- A template whose parameters can be written into it runs as the script that it becomes. -/
theorem run_eq (template : List Char) (parameters : List Value) (handle : Handle) (store : σ) :
    run backend template parameters handle store =
      match Sql.bindTemplate template parameters with
      | .error e => (handle, store, .error e)
      | .ok script =>
        match runAll backend script handle store with
        | (handle, store, .ok results) => (handle, store, .ok (results.getLastD []))
        | (handle, store, .error e) => (handle, store, .error e.error) := by
  rw [run]
  cases Sql.bindTemplate template parameters with
  | error e => rfl
  | ok script =>
    simp only [runAll]
    cases Sql.parseScript script with
    | error e => rfl
    | ok statements => exact executeLast_eq statements [] handle store

end EmbeddedSql.Handle
