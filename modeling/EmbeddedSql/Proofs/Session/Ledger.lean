import EmbeddedSql.Proofs.Lock.Closing
import EmbeddedSql.Proofs.Lock.Mutex
import EmbeddedSql.Proofs.Session.History

/-!
# The books of a system

What holds in every state of a system, seen together with the record of the
calls that took effect: the record leads to the stored document, the commit lock
is with one call at most, known guards are open, and every call stands in the
record or not as its stage demands. A move works on one call; while it does, the
books of all other calls stay as they are.
-/

namespace EmbeddedSql.Session

open Sql Lock

/-- The result of a statement whose table is gone. -/
def missing (statement : Statement) : Except Error Reply :=
  System.resultOf statement (.error (.catalog (.tableNotFound statement.table)))

/-- Whether a result tells what came of the call. It does not if the call waited
too long for a guard or its store failed. -/
def counts : Except Error Reply → Bool
  | .error (.storage _) => false
  | .error (.catalog (.lockTimeout _ _)) => false
  | _ => true

/-- A call stands in the record with a result. -/
def Logged (record : List Entry) (number : Nat) (result : Except Error Reply) : Prop :=
  ∃ entry ∈ record, entry.number = number ∧ entry.result = result

/-- A call does not stand in the record. -/
def Unlogged (record : List Entry) (number : Nat) : Prop :=
  ∀ entry ∈ record, entry.number ≠ number

/-- What stands in the record stays there when the record grows. -/
theorem Logged.append {record : List Entry} {number : Nat} {result : Except Error Reply}
    (h : Logged record number result) (more : List Entry) :
    Logged (record ++ more) number result := by
  obtain ⟨entry, hm, hn⟩ := h
  exact ⟨entry, List.mem_append_left _ hm, hn⟩

/-- A call that does not stand in the record, nor in what is put to it, does not stand in the
whole. -/
theorem Unlogged.append {record more : List Entry} {number : Nat}
    (h : Unlogged record number) (hm : Unlogged more number) :
    Unlogged (record ++ more) number := by
  intro entry he
  rcases List.mem_append.mp he with he | he
  · exact h entry he
  · exact hm entry he

/-- A statement was checked before it asked for anything. -/
def Call.Checked (call : Call) : Prop :=
  ∀ statement, call = .execute statement → statement.precheck = .ok ()

/-- A guard keeps its owner when other guards get theirs. -/
theorem owner_mono {owners more : List String} (hp : owners <+: more) {number : Nat}
    {table : String} (h : owners[number]? = some table) : more[number]? = some table := by
  obtain ⟨rest, rfl⟩ := hp
  have hl : number < owners.length := (List.getElem?_eq_some_iff.mp h).1
  rw [List.getElem?_append_left hl, h]

/-- The guard under which a call acts is one of the call's table. -/
def Call.Owns (call : Call) (owners : List String) (guard : Option Nat) : Prop :=
  ∀ number, guard = some number →
    ∃ statement, call = .execute statement ∧ owners[number]? = some statement.table

/-- The owner of a guard stays its owner when more guards are made. -/
theorem Call.Owns.mono {call : Call} {owners more : List String} {guard : Option Nat}
    (h : call.Owns owners guard) (hp : owners <+: more) : call.Owns more guard := by
  intro number hn
  obtain ⟨statement, hc, ho⟩ := h number hn
  exact ⟨statement, hc, owner_mono hp ho⟩

namespace System

/-- A call that reads stands in the record with a result once its read has taken
place, unless the document lets it go on. -/
def Answered (record : List Entry) (number : Nat) (goesOn : Document → Bool)
    (result : Document → Except Error Reply) : Option (Except StorageError Document) → Prop
  | none => Unlogged record number
  | some (.error _) => True
  | some (.ok document) =>
    if goesOn document then Unlogged record number else Logged record number (result document)

/-- A statement that looks for its table goes on if the table is there. -/
def FoundOut (record : List Entry) (number : Nat) (statement : Statement) :
    Option (Except StorageError Document) → Prop :=
  Answered record number (fun document => document.contains statement.table)
    fun _ => missing statement

/-- A call that reads the document goes on if it has something to store. -/
def ReadOut (record : List Entry) (number : Nat) (call : Call) :
    Option (Except StorageError Document) → Prop :=
  Answered record number call.stores fun document => (call.outcome document).2

/-- A statement that writes stands in the record once its write has taken place.
Before that the stored document is the one that it read, and after that the one
that it wrote. -/
def WrittenOut (s : System) (record : List Entry) (number : Nat) (before document : Document)
    (rows : List Row) : Option (Except StorageError Unit) → Prop
  | none => s.stored = before ∧ Unlogged record number
  | some (.error _) => True
  | some (.ok ()) => s.stored = document ∧ Logged record number (.ok (.rows rows))

/-- What the books say of a call at a stage, given the tables that own the
guards. -/
inductive Accounted (s : System) (owners : List String) (record : List Entry) (number : Nat) :
    Call → Stage → Prop where
  /-- A table is looked up. -/
  | finding {statement : Statement} {answer : Option (Except StorageError Document)}
    (asks : statement.AsksGuard) (found : FoundOut record number statement answer) :
    Accounted s owners record number (.execute statement) (.finding answer)
  /-- A guard is waited for; its closing has let the call take effect. -/
  | queued {statement : Statement} {guard : Nat} (asks : statement.AsksGuard)
    (owns : owners[guard]? = some statement.table)
    (waits : if s.closedAt guard then Logged record number (missing statement)
      else Unlogged record number) :
    Accounted s owners record number (.execute statement) (.queued guard)
  /-- The commit lock is waited for. -/
  | committing {call : Call} {guard : Option Nat} (checked : call.Checked)
    (owns : call.Owns owners guard) (pending : Unlogged record number) :
    Accounted s owners record number call (.committing guard)
  /-- The document is read; under the commit lock nobody else can change it. -/
  | loading {call : Call} {locks : Locks} {answer : Option (Except StorageError Document)}
    (checked : call.Checked) (owns : call.Owns owners locks.guard)
    (locked : locks.commit = false → ∀ document, call.stores document = false)
    (current : locks.commit = true → ∀ document, answer = some (.ok document) →
      s.stored = document)
    (read : ReadOut record number call answer) :
    Accounted s owners record number call (.loading locks answer)
  /-- The changed document is written under the commit lock. -/
  | storing {statement : Statement} {locks : Locks} {before document : Document}
    {rows : List Row} {answer : Option (Except StorageError Unit)}
    (checked : statement.precheck = .ok ())
    (owns : (Call.execute statement).Owns owners locks.guard) (locked : locks.commit = true)
    (effect : statement.effect before = .ok ⟨rows, some document⟩)
    (written : WrittenOut s record number before document rows answer) :
    Accounted s owners record number (.execute statement) (.storing locks document rows answer)
  /-- The call has returned. -/
  | finished {call : Call} {result : Except Error Reply}
    (logged : counts result = true → Logged record number result) :
    Accounted s owners record number call (.finished result)
  /-- The call was given up. -/
  | aborted {call : Call} : Accounted s owners record number call .aborted

end System

/-- Whether a call holds the commit lock. -/
def Stage.holdsCommit : Stage → Bool
  | .loading locks _ => locks.commit
  | .storing locks _ _ _ => locks.commit
  | _ => false

namespace System

/-- The answer to a call that reads stays as it is when other calls are put to the record. -/
theorem Answered.append {record more : List Entry} {number : Nat} {goesOn : Document → Bool}
    {result : Document → Except Error Reply} {answer : Option (Except StorageError Document)}
    (h : Answered record number goesOn result answer) (hm : Unlogged more number) :
    Answered (record ++ more) number goesOn result answer := by
  cases answer with
  | none => exact Unlogged.append h hm
  | some read =>
    cases read with
    | error e => trivial
    | ok document =>
      simp only [Answered] at h ⊢
      split at h
      next he =>
        rw [if_pos he]
        exact h.append hm
      next he =>
        rw [if_neg he]
        exact h.append more

/-- A statement that writes stays accounted for when other calls are put to the record and the
stored document stays. -/
theorem WrittenOut.append {s t : System} {record more : List Entry} {number : Nat}
    {before document : Document} {rows : List Row} {answer : Option (Except StorageError Unit)}
    (h : WrittenOut s record number before document rows answer) (hm : Unlogged more number)
    (hs : t.stored = s.stored) :
    WrittenOut t (record ++ more) number before document rows answer := by
  cases answer with
  | none => exact ⟨hs.trans h.1, h.2.append hm⟩
  | some result =>
    cases result with
    | error e => trivial
    | ok => exact ⟨hs.trans h.1, h.2.append more⟩

/-- What the books say of a call stays true if its guard stays open or closed,
guards only get new owners behind the others, the record only gets entries of
other calls, and nothing is stored as long as the call holds the commit lock. -/
theorem Accounted.mono {s t : System} {owners owners' : List String} {record more : List Entry}
    {number : Nat} {call : Call} {stage : Stage}
    (h : Accounted s owners record number call stage) (ho : owners <+: owners')
    (hm : Unlogged more number) (hs : stage.holdsCommit = true → t.stored = s.stored)
    (hc : ∀ guard, stage = .queued guard → t.closedAt guard = s.closedAt guard) :
    Accounted t owners' (record ++ more) number call stage := by
  cases h with
  | finding asks found => exact .finding asks (Answered.append found hm)
  | @queued statement guard asks owns waits =>
    refine .queued asks (owner_mono ho owns) ?_
    rw [hc guard rfl]
    split at waits
    next he =>
      rw [if_pos he]
      exact waits.append more
    next he =>
      rw [if_neg he]
      exact waits.append hm
  | committing checked owns pending => exact .committing checked (owns.mono ho) (pending.append hm)
  | loading checked owns locked current read =>
    refine .loading checked (owns.mono ho) locked ?_ (Answered.append read hm)
    intro hl document ha
    rw [hs hl]
    exact current hl document ha
  | storing checked owns locked effect written =>
    exact .storing checked (owns.mono ho) locked effect (written.append hm (hs locked))
  | finished logged => exact .finished fun hcounts => (logged hcounts).append more
  | aborted => exact .aborted

/-! ## The books -/

/-- A call holds the commit lock. -/
def Commits (s : System) (number : Nat) : Prop :=
  ∃ activity, s.calls[number]? = some activity ∧ activity.stage.holdsCommit = true

/-- The books apart from the calls: the record, the known guards and their
owners. -/
structure Ledger (s : System) (first : Document) (owners : List String) (record : List Entry) :
    Prop where
  /-- The record leads from the first document to the stored one. -/
  chained : Chained first record s.stored
  /-- An entry is about the call with its number. -/
  numbered : ∀ entry ∈ record, (s.calls[entry.number]?).map (·.call) = some entry.call
  /-- No call takes effect twice. -/
  distinct : (record.map (·.number)).Nodup
  /-- Every guard has an owner. -/
  owned : owners.length = s.guards.length
  /-- A known guard is open and owned by its table. -/
  known : ∀ entry ∈ s.known, owners[entry.2]? = some entry.1 ∧ s.closedAt entry.2 = false
  /-- The semaphores of a guard are closed or open, both of them. -/
  closes : ∀ number, (s.guardAt number).Closes (s.closedAt number)

/-- The books are in order. -/
structure Sound (s : System) (first : Document) (owners : List String) (record : List Entry) :
    Prop extends Ledger s first owners record where
  /-- The commit lock is with one call at most. -/
  commit : s.commit.Excludes s.Commits
  /-- Every call stands in the record or not as its stage demands. -/
  accounted : ∀ {number activity}, s.calls[number]? = some activity →
    Accounted s owners record number activity.call activity.stage

/-- The books are in order apart from one call that a move works on, of which it
is known whether it carries the commit lock. -/
structure Held (s : System) (first : Document) (owners : List String) (record : List Entry)
    (hand : Nat) (call : Call) (carries : Bool) : Prop extends Ledger s first owners record where
  /-- The call is there. -/
  present : (s.calls[hand]?).map (·.call) = some call
  /-- The commit lock is with one call at most. -/
  commit : s.commit.Excludes fun number =>
    (number ≠ hand ∧ s.Commits number) ∨ (number = hand ∧ carries = true)
  /-- Every other call stands in the record or not as its stage demands. -/
  accounted : ∀ {number activity}, number ≠ hand → s.calls[number]? = some activity →
    Accounted s owners record number activity.call activity.stage

end System

end EmbeddedSql.Session
