import EmbeddedSql.Proofs.Session.Answers
import EmbeddedSql.Proofs.Session.Consistency
import EmbeddedSql.Proofs.Table.Likeness

/-!
# Stores that answer alike

Two stores of different kinds that hold like documents, and go on to do so when
like documents are written to both, give like answers to every request: the same
errors, and rows that are alike one by one.
-/

namespace EmbeddedSql

/-- One failed batch is like another: the rows in front of the error are alike, and
the error is the same. -/
structure BatchError.Alike (a b : BatchError) : Prop where
  /-- The rows of the statements before it are alike. -/
  results : List.Forall₂ (List.Forall₂ Row.Alike) a.results b.results
  /-- The errors are the same. -/
  error : a.error = b.error

/-- What a request gives back. -/
inductive Answer where
  /-- The rows of one statement. -/
  | rows (result : Except Error (List Row))
  /-- The rows of every statement. -/
  | lists (result : Except BatchError (List (List Row)))

/-- Answers are alike if they are the same error, or rows that are alike. -/
inductive Answer.Alike : Answer → Answer → Prop
  | rows {a b : Except Error (List Row)} (alike : Result.Alike Eq (List.Forall₂ Row.Alike) a b) :
      Alike (.rows a) (.rows b)
  | lists {a b : Except BatchError (List (List Row))}
      (alike : Result.Alike BatchError.Alike (List.Forall₂ (List.Forall₂ Row.Alike)) a b) :
      Alike (.lists a) (.lists b)

variable {σ τ : Type}

namespace Handle

/-- What a request gives back, with the handle and the store behind it. -/
def respond (backend : Storage.Backend σ) (handle : Handle) (store : σ) :
    Request → Handle × σ × Answer
  | .run template parameters =>
    let (handle, store, result) := run backend template parameters handle store
    (handle, store, .rows result)
  | .runAll script =>
    let (handle, store, result) := runAll backend script handle store
    (handle, store, .lists result)
  | .execute parsed =>
    let (handle, store, result) := execute backend parsed.statement handle store
    (handle, store, .rows result)

end Handle

/-- States of two backends in a relation hold like documents, the first of them
consistent, and stay in it when like documents are written to both. -/
structure Storage.Backend.Simulates (first : Storage.Backend σ) (second : Storage.Backend τ)
    (R : σ → τ → Prop) : Prop where
  /-- What is read is alike. -/
  read : ∀ {s t}, R s t → Result.Alike Eq Document.Alike (first.read s) (second.read t)
  /-- What is read is consistent. -/
  consistent : ∀ {s t document}, R s t → first.read s = .ok document → document.Consistent
  /-- Both writes fail in the same way or work, and lead to related states. -/
  write : ∀ {s t document other}, R s t → document.Consistent → document.Alike other →
    (first.write document s).2 = (second.write other t).2 ∧
      R (first.write document s).1 (second.write other t).1

namespace Handle

variable {first : Storage.Backend σ} {second : Storage.Backend τ} {R : σ → τ → Prop}

/-- Results with their stores, alike in both. -/
def ResultsAlike {ε δ α β : Type} (R : σ → τ → Prop) (E : ε → δ → Prop) (S : α → β → Prop)
    (x : σ × Except ε α) (y : τ × Except δ β) : Prop :=
  R x.1 y.1 ∧ Result.Alike E S x.2 y.2

/-- Like effects are stored alike. -/
theorem commit_alike (hb : first.Simulates second R) {s : σ} {t : τ} (h : R s t) {a b : Effect}
    (hab : a.Alike b) (hc : ∀ document, a.store = some document → document.Consistent) :
    ResultsAlike R Eq (List.Forall₂ Row.Alike) (commit first a s) (commit second b t) := by
  obtain ⟨rows, store⟩ := a
  obtain ⟨rows', store'⟩ := b
  cases hab.store with
  | none => exact ⟨h, .ok hab.rows⟩
  | @some document other hd =>
    have hwrite := hb.write h (hc document rfl) hd
    simp only [commit]
    generalize first.write document s = x at hwrite
    generalize second.write other t = y at hwrite
    obtain ⟨s, result⟩ := x
    obtain ⟨t, result'⟩ := y
    obtain ⟨rfl, hstate⟩ := hwrite
    cases result with
    | ok => exact ⟨hstate, .ok hab.rows⟩
    | error e => exact ⟨hstate, .error rfl⟩

/-- A statement comes to like results on like stores. -/
theorem outcome_alike (hb : first.Simulates second R) {statement : Sql.Statement}
    (hf : statement.Finite) {s : σ} {t : τ} (h : R s t) :
    ResultsAlike R Eq (List.Forall₂ Row.Alike) (outcome first statement s)
      (outcome second statement t) := by
  rw [outcome, outcome]
  cases hp : statement.precheck with
  | error e => exact ⟨h, .error rfl⟩
  | ok =>
    -- Errors are the same on both sides, and so is what is made of them.
    have hexcuse (e : Error) : ResultsAlike R Eq (List.Forall₂ Row.Alike)
        (s, statement.excuse (.error e)) (t, statement.excuse (.error e)) := by
      refine ⟨h, ?_⟩
      rcases statement.excuse_error e with he | he
      · simp only [he]
        exact .error rfl
      · simp only [he]
        exact .ok .nil
    have hread := hb.read h
    have hconsistent (document : Document) (hd : first.read s = .ok document) :
        document.Consistent := hb.consistent h hd
    rw [load, load]
    generalize first.read s = x at hread hconsistent
    generalize second.read t = y at hread
    cases hread with
    | @error e d he =>
      obtain rfl : e = d := he
      exact hexcuse _
    | @ok a b hab =>
      have heffect := Sql.Statement.effect_alike hab hf
      have hchanged (effect : Effect) (he : statement.effect a = .ok effect) (document : Document)
          (hs : effect.store = some document) : document.Consistent :=
        Sql.Statement.consistent_effect hp hf (hconsistent a rfl) he hs
      rw [Except.mapError, Except.mapError, Result.ok_bind, Result.ok_bind]
      generalize statement.effect a = x at heffect hchanged
      generalize statement.effect b = y at heffect
      cases heffect with
      | @error e d he =>
        obtain rfl : e = d := he
        exact hexcuse e
      | ok heffect => exact commit_alike hb h heffect (hchanged _ rfl)

/-- The last of lists that are alike one by one are alike. -/
theorem forall₂_getLastD {results other : List (List Row)}
    (h : List.Forall₂ (List.Forall₂ Row.Alike) results other) :
    List.Forall₂ Row.Alike (results.getLastD []) (other.getLastD []) := by
  have hlast (a b : List Row) (hab : List.Forall₂ Row.Alike a b) :
      List.Forall₂ Row.Alike (results.getLastD a) (other.getLastD b) := by
    induction h generalizing a b with
    | nil => exact hab
    | @cons x y _ _ hxy _ ih =>
      rw [List.getLastD_cons, List.getLastD_cons]
      exact ih x y hxy
  exact hlast [] [] .nil

/-- So do statements one after another. -/
theorem executeAll_alike (hb : first.Simulates second R) {statements : List Sql.Statement}
    (hf : ∀ statement ∈ statements, statement.Finite) {done done' : List (List Row)}
    (hd : List.Forall₂ (List.Forall₂ Row.Alike) done done') (handle other : Handle) {s : σ} {t : τ}
    (h : R s t) :
    ResultsAlike R BatchError.Alike (List.Forall₂ (List.Forall₂ Row.Alike))
      (executeAll first done statements handle s).2
      (executeAll second done' statements other t).2 := by
  induction statements generalizing done done' handle other s t with
  | nil => exact ⟨h, .ok hd⟩
  | cons statement rest ih =>
    obtain ⟨hfirst, hrest⟩ := List.forall_mem_cons.mp hf
    have halike := outcome_alike hb hfirst h
    rw [← execute_snd statement handle s, ← execute_snd statement other t] at halike
    rw [executeAll, executeAll]
    generalize execute first statement handle s = x at halike
    generalize execute second statement other t = y at halike
    obtain ⟨handle, s, result⟩ := x
    obtain ⟨other, t, result'⟩ := y
    obtain ⟨hstate, hresult⟩ := halike
    cases hresult with
    | ok hrows => exact ih hrest (List.rel_append hd (.cons hrows .nil)) handle other hstate
    | error he => exact ⟨hstate, .error ⟨hd, he⟩⟩

/-- So does a script. -/
theorem runAll_alike (hb : first.Simulates second R) (script : List Char) (handle other : Handle)
    {s : σ} {t : τ} (h : R s t) :
    ResultsAlike R BatchError.Alike (List.Forall₂ (List.Forall₂ Row.Alike))
      (runAll first script handle s).2 (runAll second script other t).2 := by
  rw [runAll, runAll]
  cases hs : Sql.parseScript script with
  | error e => exact ⟨h, .error ⟨.nil, rfl⟩⟩
  | ok statements =>
    exact executeAll_alike hb (Sql.finite_of_parseScript hs) .nil handle other h

/-- So does a template with its parameters. -/
theorem run_alike (hb : first.Simulates second R) (template : List Char) (parameters : List Value)
    (handle other : Handle) {s : σ} {t : τ} (h : R s t) :
    ResultsAlike R Eq (List.Forall₂ Row.Alike) (run first template parameters handle s).2
      (run second template parameters other t).2 := by
  rw [run_eq, run_eq]
  cases Sql.bindTemplate template parameters with
  | error e => exact ⟨h, .error rfl⟩
  | ok script =>
    have halike := runAll_alike hb script handle other h
    simp only
    generalize runAll first script handle s = x at halike
    generalize runAll second script other t = y at halike
    obtain ⟨handle, s, result⟩ := x
    obtain ⟨other, t, result'⟩ := y
    obtain ⟨hstate, hresult⟩ := halike
    cases hresult with
    | error he => exact ⟨hstate, .error he.error⟩
    | @ok rows rows' hrows => exact ⟨hstate, .ok (forall₂_getLastD hrows)⟩

/-- Requests on like stores have like answers and leave like stores. -/
theorem respond_alike (hb : first.Simulates second R) (request : Request)
    (handle other : Handle) {s : σ} {t : τ} (h : R s t) :
    R (respond first handle s request).2.1 (respond second other t request).2.1 ∧
      (respond first handle s request).2.2.Alike (respond second other t request).2.2 := by
  cases request with
  | run template parameters =>
    obtain ⟨hstate, hresult⟩ := run_alike hb template parameters handle other h
    exact ⟨hstate, .rows hresult⟩
  | runAll script =>
    obtain ⟨hstate, hresult⟩ := runAll_alike hb script handle other h
    exact ⟨hstate, .lists hresult⟩
  | execute parsed =>
    have halike := outcome_alike hb (Sql.finite_of_parseStatement parsed.read) h
    rw [← execute_snd _ handle s, ← execute_snd _ other t] at halike
    exact ⟨halike.1, .rows halike.2⟩

end Handle

end EmbeddedSql
