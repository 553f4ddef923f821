import EmbeddedSql.Proofs.Session.Effect
import EmbeddedSql.Session.Handle
import EmbeddedSql.Session.System

/-!
# Calls that are made alone

What a call comes to when nothing else is under way is a function of the stored
document. Which tables the handle knows makes no difference: a table that it
does not know is looked up, and one that it knows but is not stored is missed
when the document is read.
-/

namespace EmbeddedSql

namespace Sql.Statement

/-- A statement needs its table to be there, and asks for its guard. -/
def AsksGuard : Statement → Prop
  | .create _ => False
  | _ => True

/-- A statement that asks for a guard has nothing that is checked before. -/
theorem precheck_of_asksGuard {statement : Statement} (h : statement.AsksGuard) :
    statement.precheck = .ok () := by
  cases statement with
  | create s => cases h
  | select s => rfl
  | insert s => rfl
  | update s => rfl
  | delete s => rfl
  | drop s => rfl

/-- A statement that asks for the guard of a table fails if the table is not
there. -/
theorem effect_of_missing {statement : Statement} (h : statement.AsksGuard) {document : Document}
    (hm : document.contains statement.table = false) :
    statement.effect document = .error (.catalog (.tableNotFound statement.table)) := by
  have hf : document.find? statement.table = none := by
    simpa [Document.contains] using hm
  have ht : tableIn document statement.table =
      .error (.catalog (.tableNotFound statement.table)) := by
    rw [tableIn, hf]
  cases statement with
  | create s => cases h
  | select s => exact congrArg (· >>= _) ht
  | insert s => exact congrArg (· >>= _) ht
  | update s => exact congrArg (· >>= _) ht
  | delete s => exact congrArg (· >>= _) ht
  | drop s =>
    have hc : document.contains s.table = false := hm
    simp only [effect, dropIn, hc, Bool.false_eq_true, if_false]
    rfl

/-- Removing a table leaves a document that does not have it. -/
theorem contains_of_drop {s : Drop} {document changed : Document} {rows : List Row}
    (h : (Statement.drop s).effect document = .ok ⟨rows, some changed⟩) :
    changed.contains s.table = false := by
  simp only [effect, dropIn] at h
  split at h
  · have he : changed = document.erase s.table := by
      have hs := congrArg Effect.store (Except.ok.inj h)
      exact (Option.some.inj hs).symm
    have hlookup : ∀ pairs : List (String × Table),
        Document.lookup s.table (pairs.filter fun pair => pair.1 != s.table) = none := by
      intro pairs
      induction pairs with
      | nil => rfl
      | cons pair rest ih =>
        rw [List.filter_cons]
        split
        next hk =>
          have hne : pair.1 ≠ s.table := by simpa using hk
          obtain ⟨key, table⟩ := pair
          rw [Document.lookup, if_neg hne, ih]
        next => exact ih
    rw [he]
    simp [Document.contains, Document.find?, Document.erase, hlookup]
  · cases h

end Sql.Statement

namespace Session

open Sql

/-- What a call comes to on a document when it is made alone: the document
afterwards and the result. -/
def Call.outcome (call : Call) (document : Document) : Document × Except Error Reply :=
  match call with
  | .execute statement =>
    match statement.precheck with
    | .error e => (document, .error e)
    | .ok () =>
      match statement.effect document with
      | .error e => (document, System.resultOf statement (.error e))
      | .ok effect => (effect.store.getD document, .ok (.rows effect.rows))
  | .tableNames => (document, .ok (.names document.names))
  | .schema table =>
    (document, (Statement.tableIn document table).map fun table => .columns table.schema)

/-- Whether a call has something to store. -/
def Call.stores (call : Call) (document : Document) : Bool :=
  match call with
  | .execute statement =>
    match statement.precheck, statement.effect document with
    | .ok (), .ok effect => effect.store.isSome
    | _, _ => false
  | _ => false

/-- A call that has nothing to store leaves the document as it is. -/
theorem Call.outcome_fst_of_not_stores {call : Call} {document : Document}
    (h : call.stores document = false) : (call.outcome document).1 = document := by
  cases call with
  | tableNames => rfl
  | schema table => rfl
  | execute statement =>
    simp only [stores] at h
    simp only [outcome]
    cases hp : statement.precheck with
    | error e => rfl
    | ok =>
      cases he : statement.effect document with
      | error e => rfl
      | ok effect =>
        simp only [hp, he, Option.isSome_eq_false_iff, Option.isNone_iff_eq_none] at h
        simp [h]

/-- A statement that only reads rows has nothing to store. -/
theorem Call.stores_select (statement : Select) (document : Document) :
    (Call.execute (.select statement)).stores document = false := by
  simp only [stores, Statement.precheck]
  cases he : (Statement.select statement).effect document with
  | error e => rfl
  | ok effect =>
    obtain ⟨table, _, _, rfl⟩ := Statement.exists_table_of_ok (.select statement) he
    rfl

/-- A statement that asks for a guard comes to nothing if its table is missing. -/
theorem Call.outcome_of_missing {statement : Statement} (h : statement.AsksGuard)
    {document : Document} (hm : document.contains statement.table = false) :
    (Call.execute statement).outcome document =
      (document,
        System.resultOf statement (.error (.catalog (.tableNotFound statement.table)))) := by
  have hp := Statement.precheck_of_asksGuard h
  have he := Statement.effect_of_missing h hm
  simp only [outcome, hp, he]

/-- A statement that was checked and whose change is stored comes to this. -/
theorem Call.outcome_of_effect {statement : Statement} {document changed : Document}
    {rows : List Row} (hp : statement.precheck = .ok ())
    (he : statement.effect document = .ok ⟨rows, some changed⟩) :
    (Call.execute statement).outcome document = (changed, .ok (.rows rows)) := by
  simp only [outcome, hp, he, Option.getD_some]

/-- Makes a call on a handle with a document in memory: the handle and the
document afterwards, and the result. -/
def Call.make (call : Call) (handle : Handle) (document : Document) :
    Handle × Document × Except Error Reply :=
  match call with
  | .execute statement =>
    let (handle, document, result) := handle.execute Storage.memory statement document
    (handle, document, result.map .rows)
  | .tableNames =>
    (handle, document, (Handle.tableNames Storage.memory document).map .names)
  | .schema table =>
    (handle, document, (Handle.schema Storage.memory table document).map .columns)

/-- Makes calls one after another: the document afterwards and the results. -/
def makeAll : List Call → Handle → Document → Document × List (Except Error Reply)
  | [], _, document => (document, [])
  | call :: rest, handle, document =>
    let (handle, document, result) := call.make handle document
    let (document, results) := makeAll rest handle document
    (document, result :: results)

/-- A statement whose table the handle does not know fails only if the table is
not stored. -/
theorem missing_of_find {statement : Statement} {handle : Handle} {document : Document} {e : Error}
    (h : Handle.find Storage.memory statement handle document = .error e) :
    statement.AsksGuard ∧ document.contains statement.table = false ∧
      e = .catalog (.tableNotFound statement.table) := by
  have hlookup : ∀ table : String,
      (if table ∈ handle.known then .ok handle
        else do
          let document ← Handle.load Storage.memory document
          if document.contains table then .ok (handle.register table)
          else .error (.catalog (.tableNotFound table))) = Except.error e →
      document.contains table = false ∧ e = .catalog (.tableNotFound table) := by
    intro table ht
    split at ht
    · cases ht
    · have hl : Handle.load Storage.memory document = .ok document := rfl
      rw [hl, Result.ok_bind] at ht
      split at ht
      · cases ht
      next hc => exact ⟨Bool.eq_false_iff.mpr hc, (Except.error.inj ht).symm⟩
  cases statement with
  | create s => cases h
  | select s => exact ⟨trivial, hlookup s.table h⟩
  | insert s => exact ⟨trivial, hlookup s.table h⟩
  | update s => exact ⟨trivial, hlookup s.table h⟩
  | delete s => exact ⟨trivial, hlookup s.table h⟩
  | drop s => exact ⟨trivial, hlookup s.table h⟩

/-- In memory a statement is performed by taking its effect on the document. -/
theorem perform_memory (statement : Statement) (handle : Handle) (document : Document) :
    (Handle.perform Storage.memory statement handle document).2 =
      match statement.effect document with
      | .error e => (document, .error e)
      | .ok effect => (effect.store.getD document, .ok effect.rows) := by
  have hl : Handle.load Storage.memory document >>= statement.effect =
      statement.effect document := rfl
  rw [Handle.perform, hl]
  cases statement.effect document with
  | error e => rfl
  | ok effect =>
    obtain ⟨rows, store⟩ := effect
    cases store with
    | none => rfl
    | some changed => rfl

/-- Whatever tables the handle knows, a statement comes to its outcome. -/
theorem make_execute (statement : Statement) (handle : Handle) (document : Document) :
    ((Call.execute statement).make handle document).2 =
      (Call.execute statement).outcome document := by
  simp only [Call.make, Handle.execute]
  cases hp : statement.precheck with
  | error e =>
    simp only [Call.outcome, hp]
    rfl
  | ok =>
    cases hf : Handle.find Storage.memory statement handle document with
    | error e =>
      obtain ⟨ha, hm, rfl⟩ := missing_of_find hf
      rw [Call.outcome_of_missing ha hm]
      rfl
    | ok found =>
      have hperform := perform_memory statement found document
      simp only [Call.outcome, hp]
      cases he : statement.effect document with
      | error e =>
        rw [he] at hperform
        simp only [hperform]
        rfl
      | ok effect =>
        rw [he] at hperform
        simp only [hperform]
        rfl

/-- Whatever tables the handle knows, a call comes to its outcome. -/
theorem Call.make_eq_outcome (call : Call) (handle : Handle) (document : Document) :
    (call.make handle document).2 = call.outcome document := by
  cases call with
  | execute statement => exact make_execute statement handle document
  | tableNames => rfl
  | schema table =>
    have hl : Handle.load Storage.memory document = .ok document := rfl
    simp only [make, outcome, Handle.schema, hl, Result.ok_bind]
    cases Statement.tableIn document table with
    | error e => rfl
    | ok found => rfl

end Session

end EmbeddedSql
