import EmbeddedSql.Proofs.Session.Course

/-!
# The steps of a call

A call takes its steps by the moves that concern it. Which moves these are and what comes of
them depends on the stage at which the call stands. A step is as follows: the store answers,
a lock is asked again, the call goes on with the answer that it has got, or it is ended from
outside.
-/

namespace EmbeddedSql.Session.System

open Sql Lock

variable {s t : System} {number : Nat} {call : Call} {stage : Stage} {statement : Statement}

/-- What a read comes to. -/
def readAnswer (s : System) : Option StorageError → Except StorageError Document
  | none => .ok s.stored
  | some e => .error e

/-- The steps of a call from a stage: the move and the system after it. -/
inductive Step (s : System) (number : Nat) : Call → Stage → Move → System → Prop where
  /-- A table is looked up. -/
  | looked {call : Call} (failure : Option StorageError) :
    Step s number call (.finding none) (.read number failure)
      (s.setStage number (.finding (some (s.readAnswer failure))))
  /-- The statement goes on with the document in which it looks for its table. -/
  | found {statement : Statement} (answer : Except StorageError Document) :
    Step s number (.execute statement) (.finding (some answer)) (.resume number)
      (s.afterFinding number statement answer)
  /-- The statement hears from the guard. -/
  | heard {statement : Statement} {guard : Nat} {progress : Progress}
    (h : ((s.guardAt guard).poll number).2 = some progress) :
    Step s number (.execute statement) (.queued guard) (.resume number)
      ((s.setGuard guard ((s.guardAt guard).poll number).1).afterGuard number statement guard
        progress)
  /-- The statement has waited too long for the guard. -/
  | expired {statement : Statement} {guard : Nat} {timeout : Duration}
    (h : s.config.lockTimeout = some timeout) :
    Step s number (.execute statement) (.queued guard) (.expire number)
      ((s.setGuard guard ((s.guardAt guard).cancel number)).setStage number
        (.finished (.error (.catalog (.lockTimeout statement.table timeout)))))
  /-- The call gets the commit lock. -/
  | locked {call : Call} {guard : Option Nat} (h : (s.commit.poll number).2 = .granted) :
    Step s number call (.committing guard) (.resume number)
      ({ s with commit := (s.commit.poll number).1 }.setStage number (.loading ⟨guard, true⟩ none))
  /-- The call waits on for the commit lock. -/
  | unlocked {call : Call} {guard : Option Nat} (h : (s.commit.poll number).2 ≠ .granted) :
    Step s number call (.committing guard) (.resume number)
      { s with commit := (s.commit.poll number).1 }
  /-- The document is read. -/
  | read {call : Call} {locks : Locks} (failure : Option StorageError) :
    Step s number call (.loading locks none) (.read number failure)
      (s.setStage number (.loading locks (some (s.readAnswer failure))))
  /-- The call goes on with the document. -/
  | loaded {call : Call} {locks : Locks} (answer : Except StorageError Document) :
    Step s number call (.loading locks (some answer)) (.resume number)
      (s.afterLoading number call locks answer)
  /-- The changed document is written. -/
  | written {call : Call} {locks : Locks} {document : Document} {rows : List Row} :
    Step s number call (.storing locks document rows none) (.write number none)
      ({ s with stored := document }.setStage number
        (.storing locks document rows (some (.ok ()))))
  /-- The write fails. -/
  | failed {call : Call} {locks : Locks} {document : Document} {rows : List Row}
    (e : StorageError) :
    Step s number call (.storing locks document rows none) (.write number (some e))
      (s.setStage number (.storing locks document rows (some (.error e))))
  /-- The call goes on when the write has ended. -/
  | stored {call : Call} {locks : Locks} {document : Document} {rows : List Row}
    (answer : Except StorageError Unit) :
    Step s number call (.storing locks document rows (some answer)) (.resume number)
      (s.afterStoring number call locks rows answer)
  /-- The call is given up. -/
  | abandoned {call : Call} {stage : Stage} {left : System} (h : Concerns number s left)
    (hs : ¬ stage.Ended) : Step s number call stage (.abort number) (left.setStage number .aborted)

/-- The moves that concern a call which is there are its steps. -/
theorem step_of_caller {move : Move} (hm : s.move move = some t)
    (ha : s.calls[number]? = some ⟨call, stage⟩) (hc : number = move.caller s) :
    s.Step number call stage move t := by
  cases move with
  | begin begun =>
    -- A call that begins has a number that no call had before, so it is none that is there.
    have hl := (List.getElem?_eq_some_iff.mp ha).1
    rw [hc] at hl
    exact absurd hl (Nat.lt_irrefl _)
  | read other failure =>
    obtain rfl : number = other := hc
    have hm : s.readHappens number failure = some t := hm
    simp only [System.readHappens, ha, Option.bind_eq_bind, Option.bind_some] at hm
    split at hm
    next =>
      cases hm
      exact .looked failure
    next =>
      cases hm
      exact .read failure
    next => cases hm
  | write other failure =>
    obtain rfl : number = other := hc
    have hm : s.writeHappens number failure = some t := hm
    simp only [System.writeHappens, ha, Option.bind_eq_bind, Option.bind_some] at hm
    split at hm
    next locks document rows =>
      cases failure with
      | none =>
        cases hm
        exact .written
      | some e =>
        cases hm
        exact .failed e
    next => cases hm
  | resume other =>
    obtain rfl : number = other := hc
    have hm : s.resume number = some t := hm
    simp only [System.resume, ha, Option.bind_eq_bind, Option.bind_some] at hm
    split at hm
    next statement answer =>
      cases hm
      exact .found answer
    next statement guard =>
      -- A call that is no longer at the guard at which it waits cannot go on.
      obtain ⟨progress, hp, hm⟩ := Option.bind_eq_some_iff.mp hm
      cases hm
      exact .heard hp
    next guard =>
      split at hm
      next hgranted =>
        cases hm
        exact .locked hgranted
      next hgranted =>
        cases hm
        exact .unlocked hgranted
    next locks answer =>
      cases hm
      exact .loaded answer
    next locks document rows answer =>
      cases hm
      exact .stored answer
    next => cases hm
  | expire other =>
    obtain rfl : number = other := hc
    have hm : s.expire number = some t := hm
    simp only [System.expire, ha, Option.bind_eq_bind, Option.bind_some] at hm
    obtain ⟨timeout, htimeout, hm⟩ := Option.bind_eq_some_iff.mp hm
    split at hm
    next =>
      cases hm
      exact .expired htimeout
    next => cases hm
  | abort other =>
    obtain rfl : number = other := hc
    have hended : ¬ stage.Ended := fun he => ne_caller_of_ended hm ha he rfl
    obtain ⟨left, hleft, rfl⟩ := exists_of_abort hm
    exact .abandoned hleft hended

/-- A call can take all its steps but for those that end it from outside. -/
theorem Step.move {move : Move} (h : s.Step number call stage move t)
    (ha : s.calls[number]? = some ⟨call, stage⟩) (hn : move ≠ .abort number) :
    s.move move = some t := by
  cases h with
  | looked failure =>
    simp only [System.move, System.readHappens, ha, Option.bind_eq_bind, Option.bind_some]
    rfl
  | found answer =>
    simp only [System.move, System.resume, ha, Option.bind_eq_bind, Option.bind_some]
  | heard hp =>
    simp only [System.move, System.resume, ha, Option.bind_eq_bind, Option.bind_some, hp]
  | expired htimeout =>
    simp only [System.move, System.expire, ha, Option.bind_eq_bind, Option.bind_some, htimeout]
  | locked hgranted =>
    simp only [System.move, System.resume, ha, Option.bind_eq_bind, Option.bind_some, hgranted]
  | unlocked hgranted =>
    simp only [System.move, System.resume, ha, Option.bind_eq_bind, Option.bind_some]
  | read failure =>
    simp only [System.move, System.readHappens, ha, Option.bind_eq_bind, Option.bind_some]
    rfl
  | loaded answer =>
    simp only [System.move, System.resume, ha, Option.bind_eq_bind, Option.bind_some]
  | written =>
    simp only [System.move, System.writeHappens, ha, Option.bind_eq_bind, Option.bind_some]
  | failed e =>
    simp only [System.move, System.writeHappens, ha, Option.bind_eq_bind, Option.bind_some]
  | stored answer =>
    simp only [System.move, System.resume, ha, Option.bind_eq_bind, Option.bind_some]
  | abandoned hl hs => exact absurd rfl hn

end EmbeddedSql.Session.System
