import EmbeddedSql.Proofs.Session.Passage

/-!
# Waiting too long

A statement looks for its guard, waits for it and is past it, in this order. It returns with
the error that its table was in use for too long only if its time is up while it waits for
the guard, and what it then tells is how long the settings let it wait. The settings of a
handle stay as they are.
-/

namespace EmbeddedSql

open Sql Session

/-! ## Errors of statements -/

namespace Sql.Statement

variable {document : Document} {table : String} {timeout : Duration}

/-- Looking for a table in a document does not fail by a time that is up. -/
theorem tableIn_ne_lockTimeout {name : String} :
    tableIn document name ≠ .error (.catalog (.lockTimeout table timeout)) := by
  unfold tableIn
  split
  · exact nofun
  · exact nofun

/-- No check of a statement tells that its table was in use for too long. -/
theorem mapError_ne_lockTimeout {x : Except ValidationError Unit} :
    x.mapError Error.validation ≠ .error (.catalog (.lockTimeout table timeout)) := by
  cases x with
  | error e => exact nofun
  | ok => exact nofun

/-- What a statement comes to has nothing to do with how long its table was in use. -/
theorem effect_ne_lockTimeout (statement : Statement) :
    statement.effect document ≠ .error (.catalog (.lockTimeout table timeout)) := by
  have hchecked {name : String} {check : Table → Except Error Unit} {result : Table → Effect}
      (hs : ∀ t, check t ≠ .error (.catalog (.lockTimeout table timeout))) :
      (do let t ← tableIn document name; check t; .ok (result t) : Except Error Effect) ≠
        .error (.catalog (.lockTimeout table timeout)) := by
    intro he
    rcases Result.bind_eq_error_iff.mp he with he | ⟨t, -, he⟩
    · exact tableIn_ne_lockTimeout he
    · rcases Result.bind_eq_error_iff.mp he with he | ⟨_, -, he⟩
      · exact hs t he
      · cases he
  cases statement with
  | select s => exact hchecked fun _ => mapError_ne_lockTimeout
  | insert s => exact hchecked fun _ => mapError_ne_lockTimeout
  | update s => exact hchecked fun _ => mapError_ne_lockTimeout
  | delete s => exact hchecked fun _ => mapError_ne_lockTimeout
  | create s =>
    change createIn document s ≠ _
    unfold createIn
    split
    · split
      · exact nofun
      · exact nofun
    · exact nofun
  | drop s =>
    change dropIn document s ≠ _
    unfold dropIn
    split
    · exact nofun
    · exact nofun

end Sql.Statement

namespace Session

open Lock

/-- How near to its end a call is with respect to a guard: it may look for the guard, wait
for it, or be past it. -/
def Stage.rank : Stage → Nat
  | .finding _ => 0
  | .queued _ => 1
  | _ => 2

/-- No call is further than past its guard. -/
theorem Stage.rank_le (stage : Stage) : stage.rank ≤ 2 := by
  cases stage with
  | finding answer => exact Nat.zero_le 2
  | queued guard => exact Nat.le_succ 1
  | _ => exact Nat.le_refl 2

/-- A call that is past its guard is as near to its end as can be. -/
theorem Stage.Past.rank_eq {stage : Stage} {guard : Nat} (h : stage.Past guard) :
    stage.rank = 2 := by
  cases h with
  | inside hs =>
    cases stage with
    | finding answer => cases hs
    | queued guard => cases hs
    | _ => rfl
  | ended he =>
    cases he with
    | finished result => rfl
    | aborted => rfl

/-- A statement that waits for its guard or is past it looks for it no more. -/
theorem Stage.Bound.one_le_rank {stage : Stage} {guard : Nat} (h : stage.Bound guard) :
    1 ≤ stage.rank := by
  cases h with
  | queued => exact Nat.le_refl 1
  | past hp => rw [hp.rank_eq]; exact Nat.le_succ 1

/-- Only a missing table is excused. -/
theorem System.resultOf_eq_lockTimeout {statement : Statement} {result : Except Error (List Row)}
    {table : String} {timeout : Duration}
    (h : System.resultOf statement result = .error (.catalog (.lockTimeout table timeout))) :
    result = .error (.catalog (.lockTimeout table timeout)) := by
  unfold System.resultOf Statement.excuse at h
  rw [Result.map_eq_error_iff] at h
  split at h
  next =>
    split at h
    · cases h
    · cases h
  next => exact h

namespace System

variable {s t : System} {config : Config} {hand number guard : Nat} {call : Call} {stage : Stage}
  {statement : Statement} {table : String} {timeout : Duration}

/-! ## The settings -/

/-- Giving a table a guard leaves the settings as they are. -/
theorem config_register (s : System) (table : String) : (s.register table).config = s.config := by
  unfold register
  split
  · rfl
  · rfl

/-- Giving locks back leaves the settings as they are. -/
theorem config_unlock (s : System) (hand : Nat) (locks : Locks) :
    (s.unlock hand locks).config = s.config := by
  obtain ⟨guard, commit⟩ := locks
  cases guard with
  | none => cases commit <;> rfl
  | some number => cases commit <;> rfl

/-- Asking for the commit lock leaves the settings as they are. -/
theorem config_askCommit (s : System) (hand : Nat) (guard : Option Nat) :
    (s.askCommit hand guard).config = s.config := by
  unfold askCommit
  simp only
  split
  · rfl
  · rfl

/-- What a request for a guard comes to leaves the settings as they are. -/
theorem config_afterGuard (s : System) (hand : Nat) (statement : Statement) (guard : Nat)
    (progress : Progress) : (s.afterGuard hand statement guard progress).config = s.config := by
  cases progress with
  | failed => rfl
  | waiting reached => rfl
  | granted =>
    have hcommit := config_askCommit s hand (some guard)
    cases statement with
    | select statement => rfl
    | insert statement => exact hcommit
    | update statement => exact hcommit
    | delete statement => exact hcommit
    | create statement => exact hcommit
    | drop statement => exact hcommit

/-- Beginning a statement leaves the settings as they are. -/
theorem config_beginStatement (s : System) (hand : Nat) (statement : Statement) :
    (s.beginStatement hand statement).config = s.config := by
  unfold beginStatement
  split
  · split
    · rfl
    · exact config_askCommit s hand none
  · split
    · exact config_afterGuard _ hand _ _ _
    · rfl

/-- Beginning a call leaves the settings as they are. -/
theorem config_begin (s : System) (call : Call) : (s.begin call).config = s.config := by
  cases call with
  | tableNames => rfl
  | schema table => rfl
  | execute statement => exact config_beginStatement _ _ statement

/-- What a lookup finds leaves the settings as they are. -/
theorem config_afterFinding (s : System) (hand : Nat) (statement : Statement)
    (answer : Except StorageError Document) :
    (s.afterFinding hand statement answer).config = s.config := by
  cases answer with
  | error e => rfl
  | ok document =>
    unfold afterFinding
    simp only
    split
    · split
      · exact (config_afterGuard _ hand _ _ _).trans (config_register s _)
      · exact config_register s _
    · rfl

/-- What a call does with the document leaves the settings as they are. -/
theorem config_afterLoading (s : System) (hand : Nat) (call : Call) (locks : Locks)
    (answer : Except StorageError Document) :
    (s.afterLoading hand call locks answer).config = s.config := by
  rcases afterLoading_cases s hand call locks answer with ⟨result, he⟩ |
    ⟨_, _, _, _, _, _, _, _, he⟩
  · rw [he]
    exact config_unlock s hand locks
  · rw [he]
    rfl

/-- What a call does after its write leaves the settings as they are. -/
theorem config_afterStoring (s : System) (hand : Nat) (call : Call) (locks : Locks)
    (rows : List Row) (answer : Except StorageError Unit) :
    (s.afterStoring hand call locks rows answer).config = s.config := by
  cases answer with
  | error e => exact config_unlock s hand locks
  | ok =>
    simp only [afterStoring]
    refine (config_unlock _ hand locks).trans ?_
    split
    · exact config_register s _
    · split
      · rfl
      · rfl
    · rfl

/-- No move changes the settings. -/
theorem config_move {move : Move} (hm : s.move move = some t) : t.config = s.config := by
  cases move with
  | begin begun =>
    cases hm
    exact config_begin s begun
  | read number failure =>
    obtain ⟨⟨call, stage⟩, _, hm⟩ := Option.bind_eq_some_iff.mp hm
    simp only at hm
    split at hm
    · cases hm
      rfl
    · cases hm
      rfl
    · cases hm
  | write number failure =>
    obtain ⟨⟨call, stage⟩, _, hm⟩ := Option.bind_eq_some_iff.mp hm
    simp only at hm
    split at hm
    · split at hm
      · cases hm
        rfl
      · cases hm
        rfl
    · cases hm
  | resume number =>
    obtain ⟨⟨call, stage⟩, _, hm⟩ := Option.bind_eq_some_iff.mp hm
    simp only at hm
    split at hm
    next =>
      cases hm
      exact config_afterFinding s number _ _
    next =>
      obtain ⟨progress, _, hm⟩ := Option.bind_eq_some_iff.mp hm
      cases hm
      exact config_afterGuard _ number _ _ progress
    next =>
      split at hm
      · cases hm
        rfl
      · cases hm
        rfl
    next =>
      cases hm
      exact config_afterLoading s number _ _ _
    next =>
      cases hm
      exact config_afterStoring s number _ _ _ _
    next => cases hm
  | expire number =>
    obtain ⟨⟨call, stage⟩, _, hm⟩ := Option.bind_eq_some_iff.mp hm
    obtain ⟨timeout, _, hm⟩ := Option.bind_eq_some_iff.mp hm
    simp only at hm
    split at hm
    · cases hm
      rfl
    · cases hm
  | abort number =>
    obtain ⟨⟨call, stage⟩, _, hm⟩ := Option.bind_eq_some_iff.mp hm
    simp only at hm
    cases stage with
    | finding answer =>
      cases hm
      rfl
    | queued guard =>
      cases hm
      rfl
    | committing guard =>
      cases hm
      exact config_unlock _ number _
    | loading locks answer =>
      cases hm
      exact config_unlock s number locks
    | storing locks document rows answer =>
      cases hm
      exact config_unlock s number locks
    | finished result => cases hm
    | aborted => cases hm

/-- A handle keeps its settings. -/
theorem Reached.config_eq (h : Reached config s) : s.config = config := by
  induction h with
  | opened document _ => rfl
  | move _ hm ih => exact (config_move hm).trans ih
  | stored _ document ih => exact ih

/-! ## One way only -/

/-- A call that has read the document is past its guard, if it has one. -/
theorem rank_afterLoading (hp : (s.calls[hand]?).map (·.call) = some call) (locks : Locks)
    (answer : Except StorageError Document) :
    ∃ stage, (s.afterLoading hand call locks answer).calls[hand]? = some ⟨call, stage⟩ ∧
      stage.rank = 2 := by
  rcases afterLoading_cases s hand call locks answer with ⟨result, he⟩ |
    ⟨_, _, _, _, _, _, _, _, he⟩
  · rw [he]
    exact ⟨_, getElem?_finish hp locks result, rfl⟩
  · rw [he]
    exact ⟨_, getElem?_setStage_self hp _, rfl⟩

/-- A call does not go back. -/
theorem rank_move {move : Move} (hm : s.move move = some t)
    (ha : s.calls[number]? = some ⟨call, stage⟩) :
    ∃ stage', t.calls[number]? = some ⟨call, stage'⟩ ∧ stage.rank ≤ stage'.rank := by
  by_cases hc : number = move.caller s
  · have hp : (s.calls[number]?).map (·.call) = some call := congrArg (Option.map (·.call)) ha
    cases step_of_caller hm ha hc with
    | looked failure => exact ⟨_, getElem?_setStage_self hp _, Nat.le_refl 0⟩
    | found answer =>
      obtain ⟨stage', ha'⟩ := exists_stage_move hm ha
      exact ⟨stage', ha', Nat.zero_le _⟩
    | heard hprogress =>
      obtain ⟨stage', ha', hbound⟩ := bound_move hm ha .queued
      exact ⟨stage', ha', hbound.one_le_rank⟩
    | expired htimeout =>
      exact ⟨_, getElem?_setStage_self (s := s.setGuard _ _) hp _, Nat.le_succ 1⟩
    | locked hgranted =>
      exact ⟨_, getElem?_setStage_self (s := { s with commit := _ }) hp _, Nat.le_refl 2⟩
    | unlocked hgranted => exact ⟨_, ha, Nat.le_refl 2⟩
    | read failure => exact ⟨_, getElem?_setStage_self hp _, Nat.le_refl 2⟩
    | loaded answer =>
      obtain ⟨stage', ha', hrank⟩ := rank_afterLoading hp _ answer
      exact ⟨stage', ha', Nat.le_of_eq hrank.symm⟩
    | written =>
      exact ⟨_, getElem?_setStage_self (s := { s with stored := _ }) hp _, Nat.le_refl 2⟩
    | failed e => exact ⟨_, getElem?_setStage_self hp _, Nat.le_refl 2⟩
    | stored answer =>
      obtain ⟨result, ha'⟩ := ended_afterStoring hp _ _ answer
      exact ⟨_, ha', Nat.le_refl 2⟩
    | abandoned hleft hs =>
      exact ⟨_, getElem?_setStage_self ((hleft.same number).trans hp) _, stage.rank_le⟩
  · exact ⟨stage, (others_move hm hc).trans ha, Nat.le_refl _⟩

/-- A statement that makes a table asks for no guard when it begins. -/
theorem rank_begin_create (s : System) (create : Create) :
    ∃ stage, (s.begin (.execute (.create create))).calls[s.calls.length]? =
      some ⟨.execute (.create create), stage⟩ ∧ stage.rank = 2 := by
  let grown : System :=
    { s with calls := s.calls ++ [⟨.execute (.create create), .loading ⟨none, false⟩ none⟩] }
  have hp : (grown.calls[s.calls.length]?).map (·.call) = some (.execute (.create create)) := by
    simp [grown]
  change ∃ stage, (grown.beginStatement s.calls.length (.create create)).calls[s.calls.length]? =
    _ ∧ _
  simp only [beginStatement]
  split
  · exact ⟨_, getElem?_setStage_self hp _, rfl⟩
  · unfold askCommit
    simp only
    split
    · exact ⟨_, getElem?_setStage_self (s := { grown with commit := _ }) hp _, rfl⟩
    · exact ⟨_, getElem?_setStage_self (s := { grown with commit := _ }) hp _, rfl⟩

/-- A statement that makes a table neither looks for a guard nor waits for one. -/
theorem Reached.rank_create (h : Reached config s) {create : Create}
    (ha : s.calls[number]? = some ⟨.execute (.create create), stage⟩) : stage.rank = 2 := by
  induction h generalizing stage with
  | opened document _ => cases ha
  | stored _ document ih => exact ih ha
  | @move s t move hr hm ih =>
    by_cases hb : number = s.calls.length ∧ ∃ begun, move = .begin begun
    · obtain ⟨rfl, begun, rfl⟩ := hb
      cases hm
      obtain rfl : Call.execute (.create create) = begun := call_of_begin ha
      obtain ⟨stage', hstage, hrank⟩ := rank_begin_create s create
      rw [ha] at hstage
      cases hstage
      exact hrank
    · have hbefore : ∃ activity, s.calls[number]? = some activity := by
        by_cases hc : number = move.caller s
        · rw [hc]
          refine exists_of_caller hm fun begun he => hb ⟨?_, begun, he⟩
          rw [hc, he]
          rfl
        · exact ⟨_, (others_move hm hc).symm.trans ha⟩
      obtain ⟨⟨call, before⟩, hbefore⟩ := hbefore
      obtain ⟨stage', hstage, hle⟩ := rank_move hm hbefore
      rw [ha] at hstage
      cases hstage
      rw [ih hbefore] at hle
      exact Nat.le_antisymm stage.rank_le hle

/-! ## When a time is up -/

/-- A call has returned with the error that a table was in use for too long. -/
def TimedOut (s : System) (number : Nat) (table : String) (timeout : Duration) : Prop :=
  s.Returned number (.error (.catalog (.lockTimeout table timeout)))

/-- A call that stands elsewhere has not waited too long. -/
theorem not_timedOut (ha : s.calls[number]? = some ⟨call, stage⟩)
    (hs : stage ≠ .finished (.error (.catalog (.lockTimeout table timeout)))) :
    ¬ s.TimedOut number table timeout := by
  rintro ⟨other, ho⟩
  rw [ha] at ho
  cases ho
  exact hs rfl

/-- A call that stands at a guard has not waited too long. -/
theorem not_timedOut_of_spot (ha : s.calls[number]? = some ⟨call, stage⟩) {spot : Spot}
    (hs : stage.spot = some spot) : ¬ s.TimedOut number table timeout := by
  refine not_timedOut ha ?_
  rintro rfl
  cases hs

/-- A statement that misses its table has not waited too long for it. -/
theorem missing_ne_lockTimeout (statement : Statement) :
    missing statement ≠ .error (.catalog (.lockTimeout table timeout)) := by
  intro h
  cases resultOf_eq_lockTimeout h

/-- A statement that hears from a guard has not waited too long for it. -/
theorem not_timedOut_afterGuard (hp : (s.calls[hand]?).map (·.call) = some call)
    (statement : Statement) (guard : Nat) (progress : Progress) :
    ¬ (s.afterGuard hand statement guard progress).TimedOut hand table timeout := by
  obtain ⟨stage, ha, hs⟩ := exists_afterGuard hp statement guard progress
  cases progress with
  | granted => exact not_timedOut_of_spot ha hs
  | failed =>
    rw [hs] at ha
    exact not_timedOut ha fun he => missing_ne_lockTimeout statement (Stage.finished.inj he)
  | waiting reached =>
    rw [hs] at ha
    exact not_timedOut ha nofun

/-- A statement that begins has not waited yet. -/
theorem not_timedOut_beginStatement (hp : (s.calls[hand]?).map (·.call) = some call)
    (statement : Statement) :
    ¬ (s.beginStatement hand statement).TimedOut hand table timeout := by
  unfold beginStatement
  split
  next create =>
    split
    next e he =>
      refine not_timedOut (getElem?_setStage_self hp _) fun hs => ?_
      cases hs
      exact Statement.mapError_ne_lockTimeout he
    next =>
      unfold askCommit
      simp only
      split
      · exact not_timedOut (getElem?_setStage_self (s := { s with commit := _ }) hp _) nofun
      · exact not_timedOut (getElem?_setStage_self (s := { s with commit := _ }) hp _) nofun
  next =>
    split
    next number _ => exact not_timedOut_afterGuard (s := s.setGuard number _) hp _ number _
    next => exact not_timedOut (getElem?_setStage_self hp _) nofun

/-- A statement that has looked its table up has not waited yet. -/
theorem not_timedOut_afterFinding (hp : (s.calls[hand]?).map (·.call) = some call)
    (statement : Statement) (answer : Except StorageError Document) :
    ¬ (s.afterFinding hand statement answer).TimedOut hand table timeout := by
  cases answer with
  | error e => exact not_timedOut (getElem?_setStage_self hp _) nofun
  | ok document =>
    unfold afterFinding
    simp only
    split
    · obtain ⟨number, hg⟩ := exists_guardOf?_register s statement.table
      rw [← calls_register s statement.table] at hp
      simp only [hg]
      exact not_timedOut_afterGuard (s := (s.register _).setGuard number _) hp _ number _
    · exact not_timedOut (getElem?_setStage_self hp _) fun he =>
        missing_ne_lockTimeout statement (Stage.finished.inj he)

/-- A call that has read the document does not come to wait for a guard. -/
theorem not_timedOut_afterLoading (hp : (s.calls[hand]?).map (·.call) = some call)
    (locks : Locks) (answer : Except StorageError Document) :
    ¬ (s.afterLoading hand call locks answer).TimedOut hand table timeout := by
  have hfinished {result : Except Error Reply}
      (hr : result ≠ .error (.catalog (.lockTimeout table timeout))) :
      ¬ (s.finish hand locks result).TimedOut hand table timeout :=
    not_timedOut (getElem?_finish hp locks result) fun he => hr (Stage.finished.inj he)
  cases answer with
  | error e => exact hfinished (by simp)
  | ok document =>
    cases call with
    | tableNames => exact hfinished (by simp)
    | schema name =>
      exact hfinished fun he => Statement.tableIn_ne_lockTimeout (Result.map_eq_error_iff.mp he)
    | execute statement =>
      simp only [afterLoading]
      split
      next e he =>
        refine hfinished fun hr => ?_
        cases resultOf_eq_lockTimeout hr
        exact statement.effect_ne_lockTimeout he
      next =>
        split
        · exact hfinished (by simp)
        · exact not_timedOut (getElem?_setStage_self hp _) (by simp)

/-- A call that has written the changed document has not waited too long. -/
theorem not_timedOut_afterStoring (hp : (s.calls[hand]?).map (·.call) = some call)
    (locks : Locks) (rows : List Row) (answer : Except StorageError Unit) :
    ¬ (s.afterStoring hand call locks rows answer).TimedOut hand table timeout := by
  cases answer with
  | error e => exact not_timedOut (getElem?_finish hp locks _) nofun
  | ok =>
    obtain ⟨settled, hsettled, he⟩ := afterStoring_ok s hand call locks rows
    rw [he]
    exact not_timedOut (getElem?_finish ((hsettled.same hand).trans hp) locks _) nofun

/-- A call that begins has not waited yet. -/
theorem not_timedOut_begin (s : System) (call : Call) :
    ¬ (s.begin call).TimedOut s.calls.length table timeout := by
  have hplain {begun : Call} : ¬ TimedOut
      { s with calls := s.calls ++ [⟨begun, .loading ⟨none, false⟩ none⟩] } s.calls.length table
      timeout :=
    not_timedOut List.getElem?_concat_length nofun
  cases call with
  | tableNames => exact hplain
  | schema name => exact hplain
  | execute statement =>
    let grown : System :=
      { s with calls := s.calls ++ [⟨.execute statement, .loading ⟨none, false⟩ none⟩] }
    have hp : (grown.calls[s.calls.length]?).map (·.call) = some (.execute statement) := by
      simp [grown]
    exact not_timedOut_beginStatement hp statement

/-- A call comes to have waited too long only when its time is up while it waits for the
guard of its table. -/
theorem timedOut_of_move {move : Move} (hm : s.move move = some t)
    (ht : t.TimedOut number table timeout) :
    s.TimedOut number table timeout ∨
      (move = .expire number ∧ s.config.lockTimeout = some timeout ∧
        ∃ statement guard, s.calls[number]? = some ⟨.execute statement, .queued guard⟩ ∧
          statement.table = table) := by
  by_cases hc : number = move.caller s
  · by_cases hb : ∃ begun, move = .begin begun
    · obtain ⟨begun, rfl⟩ := hb
      obtain rfl : number = s.calls.length := hc
      cases hm
      exact absurd ht (not_timedOut_begin s begun)
    · obtain ⟨⟨call, stage⟩, ha⟩ := exists_of_caller hm fun begun he => hb ⟨begun, he⟩
      rw [← hc] at ha
      have hp : (s.calls[number]?).map (·.call) = some call := congrArg (Option.map (·.call)) ha
      -- Of all steps of the call only the end of its time returns this error.
      cases step_of_caller hm ha hc with
      | looked failure => exact absurd ht (not_timedOut (getElem?_setStage_self hp _) nofun)
      | found answer => exact absurd ht (not_timedOut_afterFinding hp _ answer)
      | heard hprogress =>
        exact absurd ht (not_timedOut_afterGuard (s := s.setGuard _ _) hp _ _ _)
      | @expired statement guard allowed hallowed =>
        have hthere := getElem?_setStage_self (s := s.setGuard guard
          ((s.guardAt guard).cancel number)) hp
          (.finished (.error (.catalog (.lockTimeout statement.table allowed))))
        obtain ⟨call, ht⟩ := ht
        rw [hthere] at ht
        cases ht
        exact .inr ⟨rfl, hallowed, statement, guard, ha, rfl⟩
      | locked hgranted =>
        exact absurd ht
          (not_timedOut (getElem?_setStage_self (s := { s with commit := _ }) hp _) nofun)
      | unlocked hgranted => exact .inl ht
      | read failure => exact absurd ht (not_timedOut (getElem?_setStage_self hp _) nofun)
      | loaded answer => exact absurd ht (not_timedOut_afterLoading hp _ answer)
      | written =>
        exact absurd ht
          (not_timedOut (getElem?_setStage_self (s := { s with stored := _ }) hp _) nofun)
      | failed e => exact absurd ht (not_timedOut (getElem?_setStage_self hp _) nofun)
      | stored answer => exact absurd ht (not_timedOut_afterStoring hp _ _ answer)
      | abandoned hleft hs =>
        exact absurd ht
          (not_timedOut (getElem?_setStage_self ((hleft.same number).trans hp) _) nofun)
  · obtain ⟨call, ha⟩ := ht
    exact .inl ⟨call, (others_move hm hc).symm.trans ha⟩

end System

end Session

end EmbeddedSql
