import EmbeddedSql.Proofs.Session.Barred
import EmbeddedSql.Proofs.Session.Expiry
import EmbeddedSql.Session.Timeline

/-!
# The ticks of a timeline

A timeline goes on by ticks. At a tick one of the tasks does the next thing that it can do
at the instant, or the clock moves on, which it does only when no task can do anything. Which
task comes first at an instant is left open here, and so is how long the store takes for
each operation.

What a task does concerns the call that it has under way and no other, and no two tasks have
the same call under way.
-/

namespace EmbeddedSql.Session

open Sql Lock

namespace System

variable {s t u : System} {config : Config} {hand number guard : Nat} {call : Call}
  {stage : Stage} {statement : Statement} {table : String} {timeout : Duration}

/-! ## Moves of one call -/

/-- A call has made some moves. -/
inductive Moved (hand : Nat) (s : System) : System → Prop where
  /-- It has made none. -/
  | rests : Moved hand s s
  /-- It makes one more. -/
  | moves {t u : System} {move : Move} (h : Moved hand s t) (hm : t.move move = some u)
    (hc : move.caller t = hand) : Moved hand s u

/-- The moves of a call lead from a system that is reached to one that is. -/
theorem Moved.reached (h : Moved hand s t) (hr : Reached config s) : Reached config t := by
  induction h with
  | rests => exact hr
  | moves _ hm _ ih => exact ih.move hm

/-- The moves of a call leave the others where they stand. -/
theorem Moved.others (h : Moved hand s t) (hne : number ≠ hand) :
    t.calls[number]? = s.calls[number]? := by
  induction h with
  | rests => rfl
  | moves _ hm hc ih => exact (others_move hm (hc ▸ hne)).trans ih

/-- Calls stay what they are and do not go back. -/
theorem Moved.rank (h : Moved hand s t) (ha : s.calls[number]? = some ⟨call, stage⟩) :
    ∃ stage', t.calls[number]? = some ⟨call, stage'⟩ ∧ stage.rank ≤ stage'.rank := by
  induction h with
  | rests => exact ⟨stage, ha, Nat.le_refl _⟩
  | moves _ hm _ ih =>
    obtain ⟨between, hb, hle⟩ := ih
    obtain ⟨stage', ha', hle'⟩ := rank_move hm hb
    exact ⟨stage', ha', Nat.le_trans hle hle'⟩

/-- A statement waits for one guard only. -/
theorem Moved.bound (h : Moved hand s t)
    (ha : s.calls[number]? = some ⟨.execute statement, .queued guard⟩) :
    ∃ stage, t.calls[number]? = some ⟨.execute statement, stage⟩ ∧ stage.Bound guard := by
  induction h with
  | rests => exact ⟨_, ha, .queued⟩
  | moves _ hm _ ih =>
    obtain ⟨between, hb, hbound⟩ := ih
    exact bound_move hm hb hbound

/-- Nobody gets ahead of a statement that waits. -/
theorem Moved.barred (h : Moved hand s t) (hr : Reached config s) (hne : number ≠ hand)
    (ha : s.calls[number]? = some ⟨.execute statement, .queued guard⟩)
    (hb : t.closedAt guard = false ∧ t.Barred number statement guard) :
    s.closedAt guard = false ∧ s.Barred number statement guard := by
  induction h with
  | rests => exact hb
  | moves hmoved hm hc ih =>
    refine ih ((hmoved.reached hr).barred_of_move hm (hc ▸ hne) ?_ hb)
    exact (hmoved.others hne).trans ha

end System

/-- The call that a task has under way. -/
def Status.current : Status → Option Nat
  | .running course => course.current
  | _ => none

/-- A call reads, or looks its table up, at a stage. -/
def Stage.Reads : Stage → Prop
  | .finding _ => True
  | .loading _ _ => True
  | _ => False

namespace Timeline

open Session.System

variable {s t : System} {config : Config} {hand number guard : Nat} {call : Call}
  {stage : Stage} {statement : Statement} {table : String} {timeout : Duration}

/-- A move that cannot be made changes nothing. -/
theorem make_cases (s : System) (move : Move) :
    make s move = s ∨ s.move move = some (make s move) := by
  unfold make
  cases s.move move with
  | none => exact .inl rfl
  | some t => exact .inr rfl

/-- A call makes one more move if it can. -/
theorem moved_make (h : s.Moved hand t) {move : Move} (hc : move.caller t = hand) :
    s.Moved hand (make t move) := by
  rcases make_cases t move with he | hm
  · rw [he]
    exact h
  · exact .moves h hm hc

/-- A move that can be made is made. -/
theorem make_of_move {move : Move} (hm : s.move move = some t) : make s move = t := by
  rw [make, hm]
  rfl

/-- A call is waiting for a guard exactly if it stands in the queue for one. -/
theorem isQueued_eq_true_iff :
    isQueued s number = true ↔ ∃ call guard, s.calls[number]? = some ⟨call, .queued guard⟩ := by
  unfold isQueued
  split
  next call guard ha => exact ⟨fun _ => ⟨call, guard, ha⟩, fun _ => rfl⟩
  next hn =>
    refine ⟨nofun, fun ⟨call, guard, ha⟩ => ?_⟩
    exact absurd ha (hn call guard)

/-! ## What a task does at an instant -/

/-- How a task goes on at an instant: what becomes of the system and of the task. -/
inductive Goes (now : Nat) (s : System) (task : Task) : Status → System → Status → Prop where
  /-- It begins. -/
  | begins (h : task.start ≤ now) : Goes now s task .waiting s (beginTask now task.request)
  /-- It is given up before it has begun. -/
  | dismissed (h : hasCome now task.abortAt = true) :
    Goes now s task .waiting s (.ended now .aborted)
  /-- It is given up between two calls. -/
  | stopped {course : Course} (h : hasCome now task.abortAt = true) (hc : course.current = none) :
    Goes now s task (.running course) s (.ended now .aborted)
  /-- It is given up with its call. -/
  | abandoned {course : Course} {call : Nat} (h : hasCome now task.abortAt = true)
    (hc : course.current = some call) :
    Goes now s task (.running course) (make s (.abort call)) (.ended now .aborted)
  /-- It has made all its calls. -/
  | ends {course : Course} (hc : course.current = none) (hp : course.pending = []) :
    Goes now s task (.running course) s (.ended now (endingOf task.request course.done))
  /-- It makes its next call. -/
  | calls {course : Course} {call : Call} {rest : List Call} (hc : course.current = none)
    (hp : course.pending = call :: rest) :
    Goes now s task (.running course) (s.begin call)
      (.running ⟨rest, course.done, some s.calls.length, none, none⟩)
  /-- Its call begins to read. -/
  | looks {course : Course} {call : Nat} {activity : Activity} (due : Nat)
    (hc : course.current = some call) (ha : s.calls[call]? = some activity)
    (hs : activity.stage.Reads) (hd : course.due = none) :
    Goes now s task (.running course) s (.running { course with due := some due })
  /-- Its call has read and goes on. -/
  | reads {course : Course} {call time : Nat} {activity : Activity}
    (hc : course.current = some call) (ha : s.calls[call]? = some activity)
    (hs : activity.stage.Reads) (hd : course.due = some time) (ht : time ≤ now) :
    Goes now s task (.running course) (make (make s (.read call none)) (.resume call))
      (.running { course with due := none })
  /-- The deadline of its call is set. -/
  | waits {course : Course} {call guard : Nat} {begun : Call} {timeout : Duration}
    (hc : course.current = some call) (ha : s.calls[call]? = some ⟨begun, .queued guard⟩)
    (hd : course.deadline = none) (ht : s.config.lockTimeout = some timeout) :
    Goes now s task (.running course) s
      (.running { course with deadline := some (now + timeout.milliseconds) })
  /-- Its call hears from the guard. -/
  | hears {course : Course} {call guard : Nat} {begun : Call}
    (hc : course.current = some call) (ha : s.calls[call]? = some ⟨begun, .queued guard⟩)
    (hq : isQueued (make s (.resume call)) call = false) :
    Goes now s task (.running course) (make s (.resume call)) (.running course)
  /-- Its call has waited too long. -/
  | expires {course : Course} {call guard : Nat} {begun : Call}
    (hc : course.current = some call) (ha : s.calls[call]? = some ⟨begun, .queued guard⟩)
    (hq : isQueued (make s (.resume call)) call = true)
    (hd : hasCome now course.deadline = true) :
    Goes now s task (.running course) (make (make s (.resume call)) (.expire call))
      (.running course)
  /-- Its call gets the commit lock. -/
  | locks {course : Course} {call : Nat} {begun : Call} {guard : Option Nat}
    (hc : course.current = some call) (ha : s.calls[call]? = some ⟨begun, .committing guard⟩)
    (hq : isCommitting (make s (.resume call)) call = false) :
    Goes now s task (.running course) (make s (.resume call)) (.running course)
  /-- Its call writes. -/
  | writes {course : Course} {call : Nat} {begun : Call} {locks : Locks} {document : Document}
    {rows : List Row} (due : Nat) (hc : course.current = some call)
    (ha : s.calls[call]? = some ⟨begun, .storing locks document rows none⟩) :
    Goes now s task (.running course) (make s (.write call none))
      (.running { course with due := some due })
  /-- Its call has written and goes on. -/
  | stores {course : Course} {call : Nat} {begun : Call} {locks : Locks} {document : Document}
    {rows : List Row} {answer : Except StorageError Unit} (hc : course.current = some call)
    (ha : s.calls[call]? = some ⟨begun, .storing locks document rows (some answer)⟩)
    (hd : hasCome now course.due = true) :
    Goes now s task (.running course) (make s (.resume call))
      (.running { course with due := none })
  /-- Its call has returned. -/
  | returns {course : Course} {call : Nat} {begun : Call} {result : Except Error Reply}
    (hc : course.current = some call) (ha : s.calls[call]? = some ⟨begun, .finished result⟩) :
    Goes now s task (.running course) s (afterCall now task.request course result)
  /-- Its call was given up. -/
  | dropped {course : Course} {call : Nat} {begun : Call} (hc : course.current = some call)
    (ha : s.calls[call]? = some ⟨begun, .aborted⟩) :
    Goes now s task (.running course) s (.ended now .aborted)

variable {delays : Delays} {now : Nat} {s t : System} {task : Task} {status status' : Status}
  {course : Course} {number : Nat}

/-- A call that is under way goes on in one of the ways in which a task can. -/
theorem goes_of_stepCall (hc : course.current = some number)
    (h : stepCall delays now s task.request course number = some (t, status')) :
    Goes now s task (.running course) t status' := by
  unfold stepCall at h
  obtain ⟨⟨call, stage⟩, ha, h⟩ := Option.bind_eq_some_iff.mp h
  simp only at h
  -- A lookup and a read go on in the same way: they are begun, and answered when they are due.
  have hreads (hs : stage.Reads) {time : Nat} (hd : course.due = some time)
      (h : (if time ≤ now then
        some (make (make s (.read number none)) (.resume number),
          .running { course with due := none })
        else none) = some (t, status')) : Goes now s task (.running course) t status' := by
    split at h
    next ht =>
      cases h
      exact .reads hc ha hs hd ht
    next => cases h
  split at h
  next =>
    split at h
    next hd =>
      cases h
      exact .looks _ hc ha trivial hd
    next time hd => exact hreads trivial hd h
  next =>
    split at h
    next hd =>
      cases h
      exact .looks _ hc ha trivial hd
    next time hd => exact hreads trivial hd h
  next guard =>
    split at h
    next timeout hd ht =>
      cases h
      exact .waits hc ha hd ht
    next =>
      split at h
      next hq =>
        split at h
        next hd =>
          cases h
          exact .expires hc ha hq hd
        next => cases h
      next hq =>
        cases h
        exact .hears hc ha (Bool.eq_false_iff.mpr hq)
  next guard =>
    split at h
    next => cases h
    next hq =>
      cases h
      exact .locks hc ha (Bool.eq_false_iff.mpr hq)
  next locks document rows =>
    cases h
    exact .writes _ hc ha
  next locks document rows answer =>
    split at h
    next hd =>
      cases h
      exact .stores hc ha hd
    next => cases h
  next result =>
    cases h
    exact .returns hc ha
  next =>
    cases h
    exact .dropped hc ha

/-- These are all the ways in which a task can go on. -/
theorem goes_of_stepTask (h : stepTask delays now s task status = some (t, status')) :
    Goes now s task status t status' := by
  cases status with
  | ended time ending => cases h
  | waiting =>
    simp only [stepTask] at h
    split at h
    next hs =>
      cases h
      exact .begins hs
    next =>
      split at h
      next ha =>
        cases h
        exact .dismissed ha
      next => cases h
  | running course =>
    simp only [stepTask] at h
    split at h
    next ha =>
      split at h
      next hc =>
        cases h
        exact .stopped ha hc
      next call hc =>
        cases h
        exact .abandoned ha hc
    next =>
      split at h
      next call hc => exact goes_of_stepCall hc h
      next hc =>
        split at h
        next hp =>
          cases h
          exact .ends hc hp
        next call rest hp =>
          cases h
          exact .calls hc hp

/-- A task that begins has no call under way. -/
theorem current_beginTask (now : Nat) (request : Request) :
    (beginTask now request).current = none := by
  cases request with
  | run template parameters =>
    simp only [beginTask]
    split
    · rfl
    · rfl
  | runAll script =>
    simp only [beginTask]
    split
    · rfl
    · rfl
  | tables => rfl

/-- A task whose call has returned has no call under way. -/
theorem current_afterCall (now : Nat) (request : Request) (course : Course)
    (result : Except Error Reply) : (afterCall now request course result).current = none := by
  cases result with
  | error e => rfl
  | ok reply =>
    cases reply with
    | rows rows => rfl
    | names names => rfl
    | columns columns => rfl

/-- A call that begins is there. -/
theorem exists_begin (s : System) (call : Call) :
    ∃ stage, (s.begin call).calls[s.calls.length]? = some ⟨call, stage⟩ := by
  cases call with
  | tableNames => exact ⟨_, List.getElem?_concat_length⟩
  | schema table => exact ⟨_, List.getElem?_concat_length⟩
  | execute statement =>
    let grown : System :=
      { s with calls := s.calls ++ [⟨.execute statement, .loading ⟨none, false⟩ none⟩] }
    have hp : (grown.calls[s.calls.length]?).map (·.call) = some (.execute statement) := by
      simp [grown]
    have hsame := (concerns_beginStatement grown s.calls.length statement).same s.calls.length
    obtain ⟨⟨_, stage⟩, ha, rfl⟩ := Option.map_eq_some_iff.mp (hsame.trans hp)
    exact ⟨stage, ha⟩

/-- What a task does concerns the call that it has under way or makes. -/
theorem Goes.exists_moved (h : Goes now s task status t status') :
    ∃ hand, s.Moved hand t ∧
      (status.current = some hand ∨ status.current = none ∧ hand = s.calls.length) ∧
      (status'.current = none ∨ status'.current = some hand ∧
        (status.current = some hand ∨ hand < t.calls.length)) := by
  cases h with
  | begins hs =>
    exact ⟨_, .rests, .inr ⟨rfl, rfl⟩, .inl (current_beginTask now task.request)⟩
  | dismissed ha => exact ⟨_, .rests, .inr ⟨rfl, rfl⟩, .inl rfl⟩
  | stopped ha hc => exact ⟨_, .rests, .inr ⟨hc, rfl⟩, .inl rfl⟩
  | abandoned ha hc => exact ⟨_, moved_make .rests rfl, .inl hc, .inl rfl⟩
  | ends hc hp => exact ⟨_, .rests, .inr ⟨hc, rfl⟩, .inl rfl⟩
  | @calls course call rest hc hp =>
    obtain ⟨stage, ha⟩ := exists_begin s call
    have hbegin : s.move (.begin call) = some (s.begin call) := rfl
    have hmoved : s.Moved s.calls.length (s.begin call) := .moves .rests hbegin rfl
    exact ⟨_, hmoved, .inr ⟨hc, rfl⟩,
      .inr ⟨rfl, .inr (List.getElem?_eq_some_iff.mp ha).1⟩⟩
  | looks due hc ha hs hd => exact ⟨_, .rests, .inl hc, .inr ⟨hc, .inl hc⟩⟩
  | reads hc ha hs hd ht =>
    exact ⟨_, moved_make (moved_make .rests rfl) rfl, .inl hc, .inr ⟨hc, .inl hc⟩⟩
  | waits hc ha hd ht => exact ⟨_, .rests, .inl hc, .inr ⟨hc, .inl hc⟩⟩
  | hears hc ha hq => exact ⟨_, moved_make .rests rfl, .inl hc, .inr ⟨hc, .inl hc⟩⟩
  | expires hc ha hq hd =>
    exact ⟨_, moved_make (moved_make .rests rfl) rfl, .inl hc, .inr ⟨hc, .inl hc⟩⟩
  | locks hc ha hq => exact ⟨_, moved_make .rests rfl, .inl hc, .inr ⟨hc, .inl hc⟩⟩
  | writes due hc ha => exact ⟨_, moved_make .rests rfl, .inl hc, .inr ⟨hc, .inl hc⟩⟩
  | stores hc ha hd => exact ⟨_, moved_make .rests rfl, .inl hc, .inr ⟨hc, .inl hc⟩⟩
  | returns hc ha =>
    exact ⟨_, .rests, .inl hc, .inl (current_afterCall now task.request _ _)⟩
  | dropped hc ha => exact ⟨_, .rests, .inl hc, .inl rfl⟩

/-- A deadline runs only for a call that has asked for its guard. -/
def Fresh (s : System) (status : Status) : Prop :=
  ∀ course call activity, status = .running course → course.current = some call →
    s.calls[call]? = some activity → course.deadline = none ∨ 1 ≤ activity.stage.rank

/-- A deadline that stays goes on being that of a call that has asked. -/
theorem Fresh.moved (h : Fresh s (.running course)) {hand : Nat} (hm : s.Moved hand t)
    {later : Course} {call : Nat} {activity : Activity} (hc : course.current = some call)
    (ha : s.calls[call]? = some activity) (hcurrent : later.current = course.current)
    (hdeadline : later.deadline = course.deadline) : Fresh t (.running later) := by
  intro other number there he hn hthere
  cases he
  rw [hcurrent, hc] at hn
  cases hn
  rw [hdeadline]
  refine (h course call activity rfl hc ha).imp_right fun hrank => ?_
  obtain ⟨stage, hstage, hle⟩ := hm.rank ha
  rw [hthere] at hstage
  cases hstage
  exact Nat.le_trans hrank hle

/-- No deadline runs for a task without a call under way. -/
theorem fresh_of_current (s : System) (h : status.current = none) : Fresh s status := by
  rintro other number there rfl hc
  rw [Status.current, hc] at h
  cases h

/-- What other calls do is nothing to a deadline. -/
theorem Fresh.others (h : Fresh s status) {hand : Nat} (hm : s.Moved hand t)
    (hp : ∀ call, status.current = some call → call < s.calls.length) : Fresh t status := by
  cases hc : status.current with
  | none => exact fresh_of_current t hc
  | some call =>
    cases status with
    | waiting => cases hc
    | ended time ending => cases hc
    | running course => exact h.moved hm hc (List.getElem?_eq_getElem (hp call hc)) rfl rfl

/-- Whatever a task does, a deadline runs only for a call that has asked for its guard. -/
theorem Goes.fresh (h : Goes now s task status t status') (hf : Fresh s status) :
    Fresh t status' := by
  obtain ⟨hand, hmoved, -⟩ := h.exists_moved
  cases h with
  | begins hs => exact fresh_of_current s (current_beginTask now task.request)
  | dismissed ha => exact fresh_of_current s rfl
  | stopped ha hc => exact fresh_of_current s rfl
  | abandoned ha hc => exact fresh_of_current _ rfl
  | ends hc hp => exact fresh_of_current s rfl
  | calls hc hp =>
    intro other number there he _ _
    cases he
    exact .inl rfl
  | looks due hc ha hs hd => exact hf.moved hmoved hc ha rfl rfl
  | reads hc ha hs hd ht => exact hf.moved hmoved hc ha rfl rfl
  | waits hc ha hd ht =>
    intro other number there he hn hthere
    cases he
    rw [hc] at hn
    cases hn
    rw [ha] at hthere
    cases hthere
    exact .inr (Nat.le_refl 1)
  | hears hc ha hq => exact hf.moved hmoved hc ha rfl rfl
  | expires hc ha hq hd => exact hf.moved hmoved hc ha rfl rfl
  | locks hc ha hq => exact hf.moved hmoved hc ha rfl rfl
  | writes due hc ha => exact hf.moved hmoved hc ha rfl rfl
  | stores hc ha hd => exact hf.moved hmoved hc ha rfl rfl
  | returns hc ha => exact fresh_of_current s (current_afterCall now task.request _ _)
  | dropped hc ha => exact fresh_of_current s rfl

/-! ## Ticks -/

/-- What comes next in a timeline. -/
inductive Tick where
  /-- A task goes on; the store takes so long for what it begins. -/
  | task (index : Nat) (delays : Delays)
  /-- The clock moves to the next instant at which something is due. -/
  | clock
  deriving DecidableEq, Repr

/-- Whether no task can do anything at this instant. -/
def still (t : Timeline) : Bool :=
  t.tasks.all fun entry => (stepTask t.delays t.now t.system entry.1 entry.2).isNone

/-- The timeline after a tick, none if the tick is not possible. -/
def tick (t : Timeline) : Tick → Option Timeline
  | .task index delays => do
    let (task, status) ← t.tasks[index]?
    let (system, status) ← stepTask delays t.now t.system task status
    some { t with system, tasks := t.tasks.set index (task, status) }
  | .clock => if t.still then t.next?.map fun now => { t with now } else none

/-- The timeline after ticks that come one after another, none if one of them is not
possible. -/
def pass (t : Timeline) : List Tick → Option Timeline
  | [] => some t
  | tick :: rest => (t.tick tick).bind fun t => t.pass rest

/-- A timeline that has just begun on a handle. -/
def opened (delays : Delays) (config : Config) (document : Document) (known : List String)
    (tasks : List Task) : Timeline :=
  ⟨delays, 0, .ofDocument config document known, tasks.map fun task => (task, .waiting)⟩

variable {t u : Timeline} {config : Config}

/-- Some ticks and then some more are one passage. -/
theorem pass_append (t : Timeline) (front back : List Tick) :
    t.pass (front ++ back) = (t.pass front).bind fun u => u.pass back := by
  induction front generalizing t with
  | nil => rfl
  | cons tick rest ih =>
    rw [List.cons_append, pass, pass]
    cases t.tick tick with
    | none => rfl
    | some u => exact ih u

/-- A task does something at a tick. -/
theorem exists_of_tick_task {index : Nat} {delays : Delays}
    (ht : t.tick (.task index delays) = some u) :
    ∃ task status status', t.tasks[index]? = some (task, status) ∧
      Goes t.now t.system task status u.system status' ∧ u.now = t.now ∧
      u.tasks = t.tasks.set index (task, status') := by
  obtain ⟨⟨task, status⟩, he, ht⟩ := Option.bind_eq_some_iff.mp ht
  obtain ⟨⟨system, status'⟩, hs, ht⟩ := Option.bind_eq_some_iff.mp ht
  cases ht
  exact ⟨task, status, status', he, goes_of_stepTask hs, rfl, rfl⟩

/-- The clock moves to the next instant, and only if no task can do anything. -/
theorem exists_of_tick_clock (ht : t.tick .clock = some u) :
    t.still = true ∧ ∃ now, t.next? = some now ∧ u = { t with now } := by
  simp only [tick] at ht
  split at ht
  next hs =>
    obtain ⟨now, hn, rfl⟩ := Option.map_eq_some_iff.mp ht
    exact ⟨hs, now, hn, rfl⟩
  next => cases ht

/-- What holds of every timeline that comes about. -/
structure Kept (config : Config) (t : Timeline) : Prop where
  /-- The system comes about by its moves. -/
  reached : Reached config t.system
  /-- A call under way is there. -/
  present : ∀ {index : Nat} {entry : Task × Status} {call : Nat}, t.tasks[index]? = some entry →
    entry.2.current = some call → call < t.system.calls.length
  /-- No two tasks have the same call under way. -/
  distinct : ∀ {first second : Nat} {entry other : Task × Status} {call : Nat},
    t.tasks[first]? = some entry → t.tasks[second]? = some other →
    entry.2.current = some call → other.2.current = some call → first = second
  /-- A deadline runs only for a call that has asked for its guard. -/
  fresh : ∀ {index : Nat} {entry : Task × Status}, t.tasks[index]? = some entry →
    Fresh t.system entry.2

/-- What holds of every timeline holds of one that has just been opened. -/
theorem kept_opened (delays : Delays) (config : Config) (document : Document)
    {known : List String} (hk : known.Nodup) (tasks : List Task) :
    (opened delays config document known tasks).Kept config := by
  have hwaiting {index : Nat} {entry : Task × Status}
      (he : (opened delays config document known tasks).tasks[index]? = some entry) :
      entry.2 = .waiting := by
    simp only [opened, List.getElem?_map, Option.map_eq_some_iff] at he
    obtain ⟨task, _, rfl⟩ := he
    rfl
  refine ⟨.opened document hk, fun he hc => ?_, fun he _ hc _ => ?_, fun he => ?_⟩
  · rw [hwaiting he] at hc
    cases hc
  · rw [hwaiting he] at hc
    cases hc
  · rintro course call activity hs
    rw [hwaiting he] at hs
    cases hs

/-- Every task is as it was but for the one that has done something. -/
theorem getElem?_set_cases {index number : Nat} {list : List (Task × Status)}
    {entry found : Task × Status} (h : (list.set index entry)[number]? = some found) :
    number = index ∧ found = entry ∨ number ≠ index ∧ list[number]? = some found := by
  by_cases he : number = index
  · subst he
    rw [List.getElem?_set_self'] at h
    obtain ⟨_, _, rfl⟩ := Option.map_eq_some_iff.mp h
    exact .inl ⟨rfl, rfl⟩
  · rw [List.getElem?_set_ne (Ne.symm he)] at h
    exact .inr ⟨he, h⟩

/-- Another task has another call under way than the one that a task has or makes. -/
theorem Kept.ne_of_other (h : t.Kept config) {index other call : Nat} {task : Task}
    {entry : Task × Status} (he : t.tasks[index]? = some (task, status))
    (ho : t.tasks[other]? = some entry) (hne : other ≠ index)
    (hhand : status.current = some hand ∨ hand = t.system.calls.length)
    (hc : entry.2.current = some call) : call ≠ hand := by
  rintro rfl
  rcases hhand with hsame | hnew
  · exact hne (h.distinct ho he hc hsame)
  · exact absurd (h.present ho hc) (hnew ▸ Nat.lt_irrefl _)

/-- What a task does keeps what holds of the timeline. -/
theorem Kept.goes (h : t.Kept config) {index : Nat} {task : Task} {status status' : Status}
    (he : t.tasks[index]? = some (task, status))
    (hg : Goes t.now t.system task status u.system status')
    (hu : u.tasks = t.tasks.set index (task, status')) : u.Kept config := by
  obtain ⟨hand, hmoved, hbefore, hafter⟩ := hg.exists_moved
  have hkeeps {call : Nat} (hl : call < t.system.calls.length) : call < u.system.calls.length := by
    obtain ⟨stage, ha, -⟩ := hmoved.rank (List.getElem?_eq_getElem hl)
    exact (List.getElem?_eq_some_iff.mp ha).1
  -- The call that the task has under way now is the one that it had, or a new one.
  have hown {call : Nat} (hc : status'.current = some call) :
      call < u.system.calls.length ∧
        (status.current = some call ∨ call = t.system.calls.length) := by
    rcases hafter with hnone | ⟨hsome, hthere⟩
    · rw [hnone] at hc
      cases hc
    · rw [hsome] at hc
      cases hc
      refine ⟨?_, hbefore.imp_right And.right⟩
      rcases hthere with hsame | hl
      · exact hkeeps (h.present he hsame)
      · exact hl
  refine ⟨hmoved.reached h.reached, ?_, ?_, ?_⟩
  · intro number entry call hn hc
    rw [hu] at hn
    rcases getElem?_set_cases hn with ⟨-, rfl⟩ | ⟨-, hn'⟩
    · exact (hown hc).1
    · exact hkeeps (h.present hn' hc)
  · intro first second entry other call hf hs hc hc'
    rw [hu] at hf hs
    rcases getElem?_set_cases hf with ⟨hi, hentry⟩ | ⟨hne, hf'⟩
    · rcases getElem?_set_cases hs with ⟨hi', -⟩ | ⟨hne', hs'⟩
      · exact hi.trans hi'.symm
      · rw [hentry] at hc
        exact absurd rfl (h.ne_of_other he hs' hne' (hown hc).2 hc')
    · rcases getElem?_set_cases hs with ⟨-, hother⟩ | ⟨-, hs'⟩
      · rw [hother] at hc'
        exact absurd rfl (h.ne_of_other he hf' hne (hown hc').2 hc)
      · exact h.distinct hf' hs' hc hc'
  · intro number entry hn
    rw [hu] at hn
    rcases getElem?_set_cases hn with ⟨-, rfl⟩ | ⟨-, hn'⟩
    · exact hg.fresh (h.fresh he)
    · exact (h.fresh hn').others hmoved fun call hc => h.present hn' hc

/-- What holds of every timeline holds after a tick. -/
theorem Kept.tick (h : t.Kept config) {tick : Tick} (ht : t.tick tick = some u) :
    u.Kept config := by
  cases tick with
  | task index delays =>
    obtain ⟨task, status, status', he, hg, -, hu⟩ := exists_of_tick_task ht
    exact h.goes he hg hu
  | clock =>
    obtain ⟨-, now, -, rfl⟩ := exists_of_tick_clock ht
    exact ⟨h.reached, h.present, h.distinct, h.fresh⟩

/-- What holds of every timeline holds after any number of ticks. -/
theorem Kept.pass (h : t.Kept config) {ticks : List Tick} (ht : t.pass ticks = some u) :
    u.Kept config := by
  induction ticks generalizing t with
  | nil =>
    cases ht
    exact h
  | cons tick rest ih =>
    obtain ⟨next, hn, hrest⟩ := Option.bind_eq_some_iff.mp ht
    exact ih (h.tick hn) hrest

end Timeline

end EmbeddedSql.Session
