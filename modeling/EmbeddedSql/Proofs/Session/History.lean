import EmbeddedSql.Proofs.Session.Alone
import Mathlib.Data.List.Forall2

/-!
# When calls take effect

Every call takes effect at one move of the system, if it takes effect at all:
when its read takes place, if it stores nothing; when its write takes place, if
it does; and when the guard that it waits for is closed, if its table goes away.
The record of a run lists the calls in this order, each with the document in
front of it. Made one after another in the order of the record, the calls lead
from the first document to the stored one and have the recorded results.
-/

namespace EmbeddedSql.Session

open Sql

/-- A call that took effect. -/
structure Entry where
  /-- The number of the call. -/
  number : Nat
  /-- The call. -/
  call : Call
  /-- The document stored in front of it. -/
  before : Document

namespace Entry

/-- The document stored behind the call. -/
def after (entry : Entry) : Document :=
  (entry.call.outcome entry.before).1

/-- The result of the call. -/
def result (entry : Entry) : Except Error Reply :=
  (entry.call.outcome entry.before).2

end Entry

/-- Every entry begins with the document with which the one in front of it ends. -/
inductive Chained : Document → List Entry → Document → Prop where
  /-- Nothing took effect. -/
  | nil (document : Document) : Chained document [] document
  /-- A call took effect in front of the others. -/
  | cons {entry : Entry} {rest : List Entry} {last : Document}
    (h : Chained entry.after rest last) : Chained entry.before (entry :: rest) last

/-- A chain and one that begins where it ends are one chain. -/
theorem Chained.append {first middle last : Document} {front back : List Entry}
    (hf : Chained first front middle) (hb : Chained middle back last) :
    Chained first (front ++ back) last := by
  induction hf with
  | nil document => exact hb
  | cons _ ih => exact .cons (ih hb)

/-- Calls that stored nothing make a record that ends where it begins. -/
theorem chained_of_before {document : Document} {entries : List Entry}
    (h : ∀ entry ∈ entries, entry.before = document ∧ entry.after = document) :
    Chained document entries document := by
  induction entries with
  | nil => exact .nil document
  | cons entry rest ih =>
    have hentry := h entry (List.mem_cons_self ..)
    have hrest := ih fun other hm => h other (List.mem_cons_of_mem _ hm)
    have hc : Chained entry.before (entry :: rest) document := by
      refine .cons ?_
      rw [hentry.2]
      exact hrest
    rwa [hentry.1] at hc

/-- A chain without entries leads nowhere else. -/
theorem Chained.eq_of_nil {first last : Document} (h : Chained first [] last) : first = last := by
  generalize hl : ([] : List Entry) = entries at h
  cases h with
  | nil document => rfl
  | cons _ => cases hl

/-- The first call of a record took effect on the first document. -/
theorem Chained.head {first last : Document} {entry : Entry} {rest : List Entry}
    (h : Chained first (entry :: rest) last) :
    entry.before = first ∧ Chained entry.after rest last := by
  generalize hl : entry :: rest = entries at h
  cases h with
  | nil document => cases hl
  | cons htail =>
    cases hl
    exact ⟨rfl, htail⟩

/-- What a record leads to behind its first calls. -/
theorem Chained.behind {first middle last : Document} {front back : List Entry}
    (hf : Chained first front middle) (h : Chained first (front ++ back) last) :
    Chained middle back last := by
  induction hf with
  | nil document => exact h
  | cons _ ih => exact ih h.head.2

/-- If all calls of a record took effect on the last document, they stored
nothing. -/
theorem Chained.after_of_before {first document : Document} {entries : List Entry}
    (h : Chained first entries document) (hb : ∀ entry ∈ entries, entry.before = document) :
    ∀ entry ∈ entries, entry.after = document := by
  induction h with
  | nil document => exact fun entry he => nomatch he
  | @cons entry rest last hrest ih =>
    have hi := ih fun other hm => hb other (List.mem_cons_of_mem _ hm)
    intro other hm
    rcases List.mem_cons.mp hm with rfl | hm
    · cases rest with
      | nil => exact hrest.eq_of_nil
      | cons next rest =>
        rw [← hrest.head.1]
        exact hb next (List.mem_cons_of_mem _ (List.mem_cons_self ..))
    · exact hi other hm

/-- Calls that stored nothing can be left out of a record. -/
theorem Chained.filter {first last : Document} {record : List Entry}
    (h : Chained first record last) (keep : Entry → Bool)
    (hk : ∀ entry ∈ record, keep entry = false → entry.after = entry.before) :
    Chained first (record.filter keep) last := by
  induction h with
  | nil document => exact .nil document
  | @cons entry rest last hrest ih =>
    have hi := ih fun other hm => hk other (List.mem_cons_of_mem _ hm)
    cases hc : keep entry with
    | true =>
      rw [List.filter_cons_of_pos hc]
      exact .cons hi
    | false =>
      rw [List.filter_cons_of_neg (by simp [hc]), ← hk entry (List.mem_cons_self ..) hc]
      exact hi

/-- The calls of a record, made one after another on any handle, lead to the
last document and have the recorded results. -/
theorem makeAll_of_chained {first last : Document} {record : List Entry}
    (h : Chained first record last) (handle : Handle) :
    makeAll (record.map (·.call)) handle first = (last, record.map (·.result)) := by
  induction h generalizing handle with
  | nil document => rfl
  | @cons entry rest last _ ih =>
    have hmake := Call.make_eq_outcome entry.call handle entry.before
    have hi := ih (entry.call.make handle entry.before).1
    rw [List.map_cons, List.map_cons, makeAll]
    have hpair : (entry.call.make handle entry.before).2 = (entry.after, entry.result) := hmake
    simp only [hpair, hi]

/-! ## Runs -/

/-- Whether a call waits for a guard. -/
def Stage.waitsFor (guard : Nat) : Stage → Bool
  | .queued other => other == guard
  | _ => false

/-- A call waits for a guard exactly if it is in the queue for it. -/
theorem Stage.waitsFor_iff {guard : Nat} {stage : Stage} :
    stage.waitsFor guard = true ↔ stage = .queued guard := by
  cases stage with
  | queued other => simp [waitsFor]
  | finding answer => simp [waitsFor]
  | committing guard => simp [waitsFor]
  | loading locks answer => simp [waitsFor]
  | storing locks document rows answer => simp [waitsFor]
  | finished result => simp [waitsFor]
  | aborted => simp [waitsFor]

namespace System

/-- The system after moves that are made one after another, none if one of them
is not possible. -/
def run (s : System) : List Move → Option System
  | [] => some s
  | move :: rest => (s.move move).bind fun s => s.run rest

/-- Whether a guard is closed. -/
def closedAt (s : System) (number : Nat) : Bool :=
  (s.guardAt number).entry.closed

/-- The entry of a call that waits for a guard. -/
def waitingEntry (s : System) (guard : Nat) (pair : Activity × Nat) : Option Entry :=
  if pair.1.stage.waitsFor guard then some ⟨pair.2, pair.1.call, s.stored⟩ else none

/-- The entries of all calls that wait for a guard. -/
def waitingFor (s : System) (guard : Nat) : List Entry :=
  s.calls.zipIdx.filterMap (s.waitingEntry guard)

/-- The calls that take effect by a move: a statement that is turned down at
once; a call whose read takes place and that has nothing to store; a call whose
write takes place; and all calls that wait for a guard that is closed. -/
def effects (s : System) : Move → List Entry
  | .begin (.execute statement) =>
    match statement.precheck with
    | .error _ => [⟨s.calls.length, .execute statement, s.stored⟩]
    | .ok () => []
  | .read number none =>
    match s.calls[number]? with
    | some ⟨.execute statement, .finding none⟩ =>
      if s.stored.contains statement.table then []
      else [⟨number, .execute statement, s.stored⟩]
    | some ⟨call, .loading _ none⟩ =>
      if call.stores s.stored then [] else [⟨number, call, s.stored⟩]
    | _ => []
  | .write number none =>
    match s.calls[number]? with
    | some ⟨call, .storing _ _ _ none⟩ => [⟨number, call, s.stored⟩]
    | _ => []
  | .resume number =>
    match s.calls[number]? with
    | some ⟨.execute (.drop _), .storing ⟨some guard, _⟩ _ _ (some (.ok ()))⟩ =>
      if s.closedAt guard then [] else s.waitingFor guard
    | _ => []
  | _ => []

/-- The calls that take effect by moves that are made one after another. -/
def record (s : System) : List Move → List Entry
  | [] => []
  | move :: rest => s.effects move ++ ((s.move move).elim [] fun s => s.record rest)

/-- Some moves and then some more are one run. -/
theorem run_append (s : System) (front back : List Move) :
    s.run (front ++ back) = (s.run front).bind fun t => t.run back := by
  induction front generalizing s with
  | nil => rfl
  | cons move rest ih =>
    rw [List.cons_append, run, run]
    cases s.move move with
    | none => rfl
    | some t => exact ih t

/-- The record of the first moves of a run is the first part of its record. -/
theorem record_append {s t : System} {front : List Move} (h : s.run front = some t)
    (back : List Move) : s.record (front ++ back) = s.record front ++ t.record back := by
  induction front generalizing s with
  | nil =>
    cases h
    rfl
  | cons move rest ih =>
    obtain ⟨u, hm, hrest⟩ := Option.bind_eq_some_iff.mp h
    have hi := ih hrest
    simp only [List.cons_append, record, hm, Option.elim, List.append_assoc, hi]

end System

end EmbeddedSql.Session
