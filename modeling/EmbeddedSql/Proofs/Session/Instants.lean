import EmbeddedSql.Proofs.Session.Effort
import Mathlib.Logic.Relation

/-!
# From instant to instant

The tasks of a timeline have less to do with every tick that is not one of the clock, and the
clock moves on only to an instant at which one of them can do something. So there are no more
ticks than the tasks have to do, and a timeline that is run goes by ticks until no task can do
anything any more and nothing is due.
-/

namespace EmbeddedSql.Session.Timeline

open Sql Session.System

variable {t u v : Timeline} {config : Config} {task : Task} {status : Status}
  {delays : Delays} {document : Document} {known : List String} {tasks : List Task}

/-- What holds of every timeline that comes about, with the times that are set. -/
structure Ready (config : Config) (t : Timeline) : Prop where
  /-- It is kept by its ticks. -/
  kept : t.Kept config
  /-- The times of every task are in order. -/
  punctual : ∀ {index : Nat} {entry : Task × Status}, t.tasks[index]? = some entry →
    Punctual config t.system entry.2

/-- A timeline that has just been opened has no times set. -/
theorem ready_opened (delays : Delays) (config : Config) (document : Document)
    (hk : known.Nodup) (tasks : List Task) :
    (opened delays config document known tasks).Ready config := by
  refine ⟨kept_opened delays config document hk tasks, fun he => ?_⟩
  simp only [opened, List.getElem?_map, Option.map_eq_some_iff] at he
  obtain ⟨task, -, rfl⟩ := he
  exact punctual_waiting config _

/-- A tick keeps the times of every task in order. -/
theorem Ready.tick (h : t.Ready config) {tick : Tick} (ht : t.tick tick = some u) :
    u.Ready config := by
  refine ⟨h.kept.tick ht, fun {number entry} hn => ?_⟩
  cases tick with
  | clock =>
    obtain ⟨-, now, -, rfl⟩ := exists_of_tick_clock ht
    exact h.punctual hn
  | task index delays =>
    obtain ⟨task, status, status', he, hg, -, htasks⟩ := exists_of_tick_task ht
    obtain ⟨hand, hmoved, hhand, -⟩ := hg.exists_moved
    rw [htasks] at hn
    rcases getElem?_set_cases hn with ⟨-, rfl⟩ | ⟨hne, hn'⟩
    · exact hg.punctual h.kept.reached.config_eq (h.punctual he)
    · exact (h.punctual hn').others hmoved fun call =>
        h.kept.ne_of_other he hn' hne (hhand.imp_right And.right)

/-- Any number of ticks keeps the times of every task in order. -/
theorem Ready.pass (h : t.Ready config) {ticks : List Tick} (ht : t.pass ticks = some u) :
    u.Ready config := by
  induction ticks generalizing t with
  | nil =>
    cases ht
    exact h
  | cons tick rest ih =>
    obtain ⟨next, hn, hrest⟩ := Option.bind_eq_some_iff.mp ht
    exact ih (h.tick hn) hrest

/-! ## What the tasks have to do -/

/-- How many steps some tasks still take, at the most. -/
def workOf (s : System) : List (Task × Status) → Nat
  | [] => 0
  | entry :: rest => effort s entry.1 entry.2 + workOf s rest

/-- How many steps the tasks of a timeline still take, at the most. -/
def work (t : Timeline) : Nat :=
  workOf t.system t.tasks

/-- Tasks that each have as much to do have as much to do together. -/
theorem workOf_congr {s s' : System} {tasks : List (Task × Status)}
    (h : ∀ entry ∈ tasks, effort s' entry.1 entry.2 = effort s entry.1 entry.2) :
    workOf s' tasks = workOf s tasks := by
  induction tasks with
  | nil => rfl
  | cons entry rest ih =>
    obtain ⟨hfirst, hrest⟩ := List.forall_mem_cons.mp h
    rw [workOf, workOf, hfirst, ih hrest]

/-- If one task has less to do, and the others as much as before, there is less to do. -/
theorem workOf_set_lt {s s' : System} {tasks : List (Task × Status)} {index : Nat}
    {entry later : Task × Status} (he : tasks[index]? = some entry)
    (hlt : effort s' later.1 later.2 < effort s entry.1 entry.2)
    (hothers : ∀ number other, number ≠ index → tasks[number]? = some other →
      effort s' other.1 other.2 = effort s other.1 other.2) :
    workOf s' (tasks.set index later) < workOf s tasks := by
  induction tasks generalizing index with
  | nil => cases he
  | cons first rest ih =>
    cases index with
    | zero =>
      cases he
      have hrest : workOf s' rest = workOf s rest := by
        refine workOf_congr fun other ho => ?_
        obtain ⟨number, hn⟩ := List.getElem?_of_mem ho
        exact hothers (number + 1) other (Nat.succ_ne_zero number) hn
      rw [List.set_cons_zero, workOf, workOf, hrest]
      exact Nat.add_lt_add_right hlt _
    | succ index =>
      have hrest : workOf s' (rest.set index later) < workOf s rest := by
        refine ih he fun number other hne ho => ?_
        exact hothers (number + 1) other (fun heq => hne (Nat.succ.inj heq)) ho
      rw [List.set_cons_succ, workOf, workOf, hothers 0 first (Nat.succ_ne_zero index).symm rfl]
      exact Nat.add_lt_add_left hrest _

/-- If tasks have nothing to do together, none of them has. -/
theorem effort_eq_zero_of_mem {s : System} {tasks : List (Task × Status)}
    (h : workOf s tasks = 0) {entry : Task × Status} (he : entry ∈ tasks) :
    effort s entry.1 entry.2 = 0 := by
  induction tasks with
  | nil => cases he
  | cons first rest ih =>
    obtain ⟨hfirst, hrest⟩ := Nat.add_eq_zero_iff.mp h
    rcases List.mem_cons.mp he with rfl | hm
    · exact hfirst
    · exact ih hrest hm

/-- What another call does leaves a task with as much to do as before. -/
theorem effort_others {s s' : System} {hand : Nat} (hm : s.Moved hand s')
    (hne : ∀ call, status.current = some call → call ≠ hand) (task : Task) :
    effort s' task status = effort s task status := by
  cases status with
  | waiting => rfl
  | ended time ending => rfl
  | running course =>
    rw [effort, effort]
    cases hc : course.current with
    | none => rfl
    | some call => rw [Option.elim_some, Option.elim_some, hm.others (hne call hc)]

/-- There is less to do after a task has gone on. -/
theorem Ready.work_lt (h : t.Ready config) {index : Nat} {delays : Delays}
    (ht : t.tick (.task index delays) = some u) : u.work < t.work := by
  obtain ⟨task, status, status', he, hg, -, htasks⟩ := exists_of_tick_task ht
  obtain ⟨hand, hmoved, hhand, -⟩ := hg.exists_moved
  rw [work, htasks]
  refine workOf_set_lt he (hg.effort_lt h.kept.reached (h.punctual he)) ?_
  intro number other hne ho
  exact effort_others hmoved (fun call =>
    h.kept.ne_of_other he ho hne (hhand.imp_right And.right)) other.1

/-- A timeline is still exactly if no task can do anything now. -/
theorem still_iff : t.still = true ↔
    ∀ entry ∈ t.tasks, stepTask t.delays t.now t.system entry.1 entry.2 = none := by
  simp [still]

/-- Tasks that have nothing to do have ended. -/
theorem still_of_work_eq_zero (h : t.work = 0) : t.still = true := by
  rw [still_iff]
  intro entry he
  have hzero := effort_eq_zero_of_mem h he
  obtain ⟨task, status⟩ := entry
  cases status with
  | waiting => cases hzero
  | ended time ending => rfl
  | running course => exact absurd hzero (Nat.ne_of_gt (effort_pos t.system task course))

/-! ## An instant -/

/-- One of the tasks goes on. -/
def Proceeds (t u : Timeline) : Prop :=
  ∃ index, t.tick (.task index t.delays) = some u

/-- A step of a task is a tick by which the timeline proceeds. -/
theorem proceeds_of_stepTask {index : Nat} {s : System} {status' : Status}
    (he : t.tasks[index]? = some (task, status))
    (hs : stepTask t.delays t.now t.system task status = some (s, status')) :
    t.Proceeds { t with system := s, tasks := t.tasks.set index (task, status') } := by
  refine ⟨index, ?_⟩
  rw [Timeline.tick, he]
  simp only [Option.bind_eq_bind, Option.bind_some, hs]

/-- An entry that is put where it stands changes nothing. -/
theorem set_of_getElem? {index : Nat} {entry : Task × Status}
    (he : t.tasks[index]? = some entry) : t.tasks.set index entry = t.tasks := by
  obtain ⟨hl, rfl⟩ := List.getElem?_eq_some_iff.mp he
  exact List.set_getElem_self hl

/-- A task goes on as long as it can. -/
theorem proceeds_stepOn {index steps : Nat} {s : System} {status' : Status}
    (he : t.tasks[index]? = some (task, status))
    (hs : stepOn t.delays t.now task steps t.system status = (s, status')) :
    Relation.ReflTransGen Proceeds t
      { t with system := s, tasks := t.tasks.set index (task, status') } := by
  induction steps generalizing t status with
  | zero =>
    cases hs
    rw [set_of_getElem? he]
  | succ steps ih =>
    rw [stepOn] at hs
    cases hfirst : stepTask t.delays t.now t.system task status with
    | none =>
      rw [hfirst] at hs
      cases hs
      rw [set_of_getElem? he]
    | some next =>
      obtain ⟨between, status''⟩ := next
      rw [hfirst] at hs
      have hself : (t.tasks.set index (task, status''))[index]? = some (task, status'') :=
        List.getElem?_set_self (List.getElem?_eq_some_iff.mp he).1
      have hrest := ih (t := { t with
        system := between, tasks := t.tasks.set index (task, status'') }) hself hs
      rw [List.set_set] at hrest
      exact .head (proceeds_of_stepTask he hfirst) hrest

/-- Every task goes on as long as it can, one after another, unless none of them can. -/
theorem proceeds_stepAll {front rest rest' : List (Task × Status)} {steps : Nat} {s : System}
    {moved : Bool} (ht : t.tasks = front ++ rest)
    (hs : stepAll t.delays t.now steps t.system rest = (s, rest', moved)) :
    (moved = true ∧
        Relation.TransGen Proceeds t { t with system := s, tasks := front ++ rest' }) ∨
      (moved = false ∧ s = t.system ∧ rest' = rest ∧
        ∀ entry ∈ rest, stepTask t.delays t.now t.system entry.1 entry.2 = none) := by
  -- By induction on the tasks that are still to go on: those in front have had their turn.
  induction rest generalizing t front rest' moved with
  | nil =>
    cases hs
    exact .inr ⟨rfl, rfl, rfl, List.forall_mem_nil _⟩
  | cons entry rest ih =>
    obtain ⟨task, status⟩ := entry
    have he : t.tasks[front.length]? = some (task, status) := by
      rw [ht, List.getElem?_append_right (Nat.le_refl _), Nat.sub_self]
      rfl
    rw [stepAll] at hs
    cases hfirst : stepTask t.delays t.now t.system task status with
    | none =>
      rw [hfirst] at hs
      obtain ⟨between, rest'', moved', hall⟩ :
          ∃ between rest'' moved', stepAll t.delays t.now steps t.system rest =
            (between, rest'', moved') := ⟨_, _, _, rfl⟩
      simp only [hall] at hs
      cases hs
      have hnext : t.tasks = (front ++ [(task, status)]) ++ rest := by simp [ht]
      rcases ih hnext hall with ⟨hmoved, hrest⟩ | ⟨hmoved, rfl, rfl, hstuck⟩
      · rw [List.append_assoc] at hrest
        exact .inl ⟨hmoved, hrest⟩
      · exact .inr ⟨hmoved, rfl, rfl, List.forall_mem_cons.mpr ⟨hfirst, hstuck⟩⟩
    | some next =>
      obtain ⟨first, status''⟩ := next
      rw [hfirst] at hs
      obtain ⟨middle, last, hon⟩ :
          ∃ middle last, stepOn t.delays t.now task steps first status'' = (middle, last) :=
        ⟨_, _, rfl⟩
      obtain ⟨between, rest'', moved', hall⟩ :
          ∃ between rest'' moved', stepAll t.delays t.now steps middle rest =
            (between, rest'', moved') := ⟨_, _, _, rfl⟩
      simp only [hon, hall] at hs
      cases hs
      have hself : (t.tasks.set front.length (task, status''))[front.length]? =
          some (task, status'') :=
        List.getElem?_set_self (List.getElem?_eq_some_iff.mp he).1
      have hown := proceeds_stepOn (t := { t with
        system := first, tasks := t.tasks.set front.length (task, status'') }) hself hon
      have hset : t.tasks.set front.length (task, last) = front ++ (task, last) :: rest := by
        simp [ht]
      rw [List.set_set, hset] at hown
      have hfront := Relation.TransGen.head' (proceeds_of_stepTask he hfirst) hown
      have hnext : front ++ (task, last) :: rest = (front ++ [(task, last)]) ++ rest := by simp
      rcases ih (t := { t with system := middle, tasks := front ++ (task, last) :: rest }) hnext
        hall with ⟨-, hrest⟩ | ⟨-, rfl, rfl, -⟩
      · rw [List.append_assoc] at hrest
        exact .inl ⟨rfl, hfront.trans hrest⟩
      · exact .inl ⟨rfl, hfront⟩

/-- Where a timeline proceeds to, step by step, it gets by ticks. -/
theorem exists_pass_of_proceeds (h : Relation.ReflTransGen Proceeds t u) :
    ∃ ticks, t.pass ticks = some u := by
  induction h with
  | refl => exact ⟨[], rfl⟩
  | tail _ hlast ih =>
    obtain ⟨ticks, hp⟩ := ih
    obtain ⟨index, ht⟩ := hlast
    exact ⟨ticks ++ [.task index _], pass_concat_eq_some_iff.mpr ⟨_, hp, ht⟩⟩

/-- There is less to do after some tasks have gone on. -/
theorem Ready.work_lt_of_proceeds (h : t.Ready config) (hp : Relation.TransGen Proceeds t u) :
    u.Ready config ∧ u.work < t.work := by
  induction hp with
  | single ht =>
    obtain ⟨index, ht⟩ := ht
    exact ⟨h.tick ht, h.work_lt ht⟩
  | tail _ hlast ih =>
    obtain ⟨hready, hless⟩ := ih
    obtain ⟨index, ht⟩ := hlast
    exact ⟨hready.tick ht, Nat.lt_trans (hready.work_lt ht) hless⟩

/-- The tasks go on within an instant until none of them can. -/
theorem Ready.still_exhaust (h : t.Ready config) (steps : Nat) {rounds : Nat}
    (hw : t.work ≤ rounds) : (t.exhaust steps rounds).still = true ∧
      Relation.ReflTransGen Proceeds t (t.exhaust steps rounds) := by
  induction rounds generalizing t with
  | zero => exact ⟨still_of_work_eq_zero (Nat.le_zero.mp hw), .refl⟩
  | succ rounds ih =>
    obtain ⟨s, tasks, moved, hall⟩ : ∃ s tasks moved,
        stepAll t.delays t.now steps t.system t.tasks = (s, tasks, moved) := ⟨_, _, _, rfl⟩
    have htasks : t.tasks = [] ++ t.tasks := rfl
    rcases proceeds_stepAll htasks hall with ⟨rfl, hp⟩ | ⟨rfl, -, -, hstuck⟩
    · have he : t.exhaust steps (rounds + 1) =
          Timeline.exhaust steps rounds { t with system := s, tasks } := by
        rw [Timeline.exhaust, hall]
      obtain ⟨hready, hless⟩ := h.work_lt_of_proceeds hp
      obtain ⟨hstill, hrest⟩ := ih hready (Nat.le_of_lt_succ (Nat.lt_of_lt_of_le hless hw))
      rw [he]
      exact ⟨hstill, hp.to_reflTransGen.trans hrest⟩
    · have he : t.exhaust steps (rounds + 1) = t := by
        rw [Timeline.exhaust, hall]
      rw [he]
      exact ⟨still_iff.mpr hstuck, .refl⟩

/-! ## The next instant -/

/-- The present instant has come. -/
theorem hasCome_self (now : Nat) : hasCome now (some now) = true :=
  decide_eq_true (Nat.le_refl now)

/-- A call for which the store's answer is due can go on. -/
theorem stepCall_ne_none_of_due {s : System} {now number : Nat} {activity : Activity}
    {course : Course} (ha : s.calls[number]? = some activity) (hs : activity.stage.Awaits)
    (hd : course.due = some now) (delays : Delays) (request : Request) :
    stepCall delays now s request course number ≠ none := by
  obtain ⟨call, stage⟩ := activity
  simp only [stepCall, ha, Option.bind_eq_bind, Option.bind_some, hd]
  cases stage with
  | finding answer => simp
  | loading locks answer => simp
  | storing locks document rows answer =>
    cases answer with
    | none => exact hs.elim
    | some answer => simp [hasCome_self]
  | _ => exact hs.elim

/-- A call whose deadline has come can go on. -/
theorem stepCall_ne_none_of_deadline {s : System} {now number : Nat} {course : Course}
    (hq : isQueued s number = true) (hd : course.deadline = some now) (delays : Delays)
    (request : Request) : stepCall delays now s request course number ≠ none := by
  obtain ⟨call, guard, ha⟩ := isQueued_eq_true_iff.mp hq
  simp only [stepCall, ha, Option.bind_eq_bind, Option.bind_some, hd, hasCome_self, if_true]
  split
  · exact Option.some_ne_none _
  · exact Option.some_ne_none _

/-- A task for which something is due can go on. -/
theorem stepTask_ne_none {s : System} {now : Nat} (hp : Punctual config s status)
    (ht : now ∈ timesOf s (task, status)) (delays : Delays) :
    stepTask delays now s task status ≠ none := by
  cases status with
  | ended time ending => cases ht
  | waiting =>
    rw [stepTask]
    split
    next => exact Option.some_ne_none _
    next hstart =>
      rcases List.mem_cons.mp ht with rfl | habort
      · exact absurd (Nat.le_refl _) hstart
      · rw [Option.mem_toList.mp habort, hasCome_self]
        exact Option.some_ne_none _
  | running course =>
    rw [stepTask]
    split
    next =>
      split
      · exact Option.some_ne_none _
      · exact Option.some_ne_none _
    next habort =>
      rw [timesOf, List.mem_append, List.mem_append, Option.mem_toList, Option.mem_toList,
        Option.mem_toList] at ht
      -- What is due is the end of the task, an operation of the store, or a deadline.
      rcases ht with (hgiven | hdue) | hdeadline
      · rw [hgiven, hasCome_self] at habort
        exact absurd rfl habort
      · obtain ⟨number, activity, hc, ha, hs⟩ := hp.due rfl hdue
        simp only [hc]
        exact stepCall_ne_none_of_due ha hs hdue delays task.request
      · split at hdeadline
        next hq =>
          obtain ⟨number, hc, hqueued⟩ := (Option.any_eq_true _ _).mp hq
          simp only [hc]
          exact stepCall_ne_none_of_deadline hqueued hdeadline delays task.request
        next => cases hdeadline

/-- At the next instant one of the tasks can go on. -/
theorem Ready.not_still_of_next (h : t.Ready config) {now : Nat} (hn : t.next? = some now) :
    ({ t with now } : Timeline).still = false := by
  have hmem := List.min?_mem hn
  obtain ⟨entry, he, ht⟩ := List.mem_flatMap.mp (List.mem_of_mem_filter hmem)
  obtain ⟨index, hi⟩ := List.getElem?_of_mem he
  rw [Bool.eq_false_iff]
  intro hstill
  exact stepTask_ne_none (h.punctual hi) ht t.delays (still_iff.mp hstill entry he)

/-- A timeline goes from instant to instant until nothing is due any more. -/
theorem Ready.exists_pass_runWithin (h : t.Ready config) {rounds instants : Nat}
    (hw : t.work ≤ rounds) (hi : t.work ≤ instants)
    (hs : t.still = true → t.work < instants) :
    ∃ ticks, t.pass ticks = some (runWithin rounds instants t) ∧
      (runWithin rounds instants t).still = true ∧
      (runWithin rounds instants t).next? = none := by
  induction instants generalizing t with
  | zero => exact absurd (hs (still_of_work_eq_zero (Nat.le_zero.mp hi))) (Nat.not_lt_zero _)
  | succ instants ih =>
    obtain ⟨hstill, hproceeds⟩ := h.still_exhaust rounds hw
    rw [runWithin]
    generalize hv : Timeline.exhaust rounds rounds t = v at hstill hproceeds
    obtain ⟨front, hfront⟩ := exists_pass_of_proceeds hproceeds
    have hready := h.pass hfront
    -- Either the tasks could not go on at this instant, or they have less to do now.
    have hless : v.work ≤ t.work ∧ v.work ≤ instants := by
      rcases Relation.reflTransGen_iff_eq_or_transGen.mp hproceeds with rfl | hp
      · exact ⟨Nat.le_refl _, Nat.le_of_lt_succ (hs hstill)⟩
      · have hlt := (h.work_lt_of_proceeds hp).2
        exact ⟨hlt.le, Nat.le_of_lt_succ (Nat.lt_of_lt_of_le hlt hi)⟩
    cases hn : v.next? with
    | none =>
      simp only
      exact ⟨front, hfront, hstill, hn⟩
    | some now =>
      have hclock : v.tick .clock = some { v with now } := by
        rw [Timeline.tick, if_pos hstill, hn]
        rfl
      have hawake := hready.not_still_of_next hn
      obtain ⟨back, hback, hends⟩ := ih (hready.tick hclock) (Nat.le_trans hless.1 hw) hless.2
        fun hnone => by rw [hawake] at hnone; cases hnone
      refine ⟨front ++ .clock :: back, ?_, ?_⟩
      · rw [pass_append, hfront, Option.bind_some, Timeline.pass, hclock, Option.bind_some]
        exact hback
      · simp only
        exact hends

/-! ## A run -/

/-- What all tasks have to do when a timeline is opened is limited by the size of what they ask
for. -/
theorem work_opened_lt (delays : Delays) (config : Config) (document : Document)
    (known : List String) (tasks : List Task) :
    (opened delays config document known tasks).work < 16 * (sizeOfTasks tasks + 1) := by
  have hwork (s : System) :
      workOf s (tasks.map fun task => (task, .waiting)) ≤ 13 * sizeOfTasks tasks := by
    induction tasks with
    | nil => exact Nat.le_refl 0
    | cons task rest ih =>
      rw [List.map_cons, workOf, sizeOfTasks]
      change 13 * size task.request + 2 + _ ≤ _
      omega
  calc (opened delays config document known tasks).work
      ≤ 13 * sizeOfTasks tasks := hwork (.ofDocument config document known)
    _ < 16 * (sizeOfTasks tasks + 1) := by omega

/-- Tasks that are run on a handle go on by ticks, until none of them can do anything any more
and nothing is due. -/
theorem exists_pass_run (delays : Delays) (config : Config) (document : Document)
    (hk : known.Nodup) (tasks : List Task) :
    ∃ ticks, (opened delays config document known tasks).pass ticks =
        some (run delays (.ofDocument config document known) tasks) ∧
      (run delays (.ofDocument config document known) tasks).still = true ∧
      (run delays (.ofDocument config document known) tasks).next? = none := by
  have hlt := work_opened_lt delays config document known tasks
  exact (ready_opened delays config document hk tasks).exists_pass_runWithin hlt.le hlt.le
    fun _ => hlt

end EmbeddedSql.Session.Timeline
