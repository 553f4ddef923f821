import EmbeddedSql.Proofs.Session.Ticks
import Mathlib.Data.List.Induction

/-!
# The deadline of a statement

The deadline of a statement runs from the moment at which it asks for the guard of its table
until it hears from the guard. The clock does not pass a deadline: it stops there, and the
statement either is let in or has waited too long.
-/

namespace EmbeddedSql.Session

open Sql Lock

namespace System

variable {s t : System} {config : Config} {number guard : Nat} {call : Call} {stage : Stage}
  {statement : Statement} {timeout : Duration}

/-! ## How a statement that waits can go on -/

/-- A statement that waits can be given up. -/
theorem exists_abort_of_queued (ha : s.calls[number]? = some ⟨call, .queued guard⟩) :
    ∃ t, s.move (.abort number) = some t ∧ t.calls[number]? = some ⟨call, .aborted⟩ := by
  have hp : (s.calls[number]?).map (·.call) = some call := congrArg (Option.map (·.call)) ha
  refine ⟨_, ?_, getElem?_setStage_self
    (s := s.setGuard guard ((s.guardAt guard).cancel number)) hp .aborted⟩
  simp only [System.move, System.abort, ha, Option.bind_eq_bind, Option.bind_some]

/-- The time of a statement that waits can be up. -/
theorem exists_expire_of_queued
    (ha : s.calls[number]? = some ⟨.execute statement, .queued guard⟩)
    (hd : s.config.lockTimeout = some timeout) :
    ∃ t, s.move (.expire number) = some t ∧ t.calls[number]? =
      some ⟨.execute statement,
        .finished (.error (.catalog (.lockTimeout statement.table timeout)))⟩ := by
  have hp : (s.calls[number]?).map (·.call) = some (.execute statement) :=
    congrArg (Option.map (·.call)) ha
  exact ⟨_, (Step.expired hd).move ha nofun, getElem?_setStage_self
    (s := s.setGuard guard ((s.guardAt guard).cancel number)) hp _⟩

/-- A statement that looks and goes on waiting has been told to wait. -/
theorem Reached.poll_of_resume (h : Reached config s)
    (ha : s.calls[number]? = some ⟨.execute statement, .queued guard⟩)
    (hq : Timeline.isQueued (Timeline.make s (.resume number)) number = true) :
    ∃ stage, ((s.guardAt guard).poll number).2 = some (.waiting stage) := by
  obtain ⟨r, _, _, hf⟩ := Guard.exists_find?_of_mem_line (h.lined.stands ha)
  have hpoll := Guard.poll_snd hf
  have hp : (s.calls[number]?).map (·.call) = some (.execute statement) :=
    congrArg (Option.map (·.call)) ha
  rw [Timeline.make_of_move (resume_of_poll ha hpoll)] at hq
  obtain ⟨_, other, hthere⟩ := Timeline.isQueued_eq_true_iff.mp hq
  obtain ⟨stage, hstage, hcame⟩ := exists_afterGuard (s := s.setGuard guard _) hp statement guard
    ((s.guardAt guard).advance r).2
  rw [hthere] at hstage
  cases hstage
  generalize ((s.guardAt guard).advance r).2 = progress at hcame hpoll
  cases progress with
  | waiting reached => exact ⟨reached, hpoll⟩
  | granted => cases hcame
  | failed => cases hcame

/-- Only a statement waits for a guard. -/
theorem Reached.exists_statement (h : Reached config s)
    (ha : s.calls[number]? = some ⟨call, .queued guard⟩) :
    ∃ statement, call = .execute statement := by
  have hspot : s.spotOf number = some (call, .before guard) := by
    rw [spotOf, ha]
    rfl
  obtain ⟨statement, hcall, _⟩ := h.orderly.before hspot
  exact ⟨statement, hcall⟩

end System

namespace Timeline

open Session.System

variable {s t : System} {task : Task} {status status' : Status} {course : Course}
  {now number asked guard guard' : Nat} {call : Call} {stage : Stage} {statement : Statement}
  {table : String} {timeout limit : Duration} {config : Config}

/-! ## A task whose statement waits -/

/-- The settings stay as they are, whether a move can be made or not. -/
theorem config_make (s : System) (move : Move) : (make s move).config = s.config := by
  rcases make_cases s move with he | hm
  · rw [he]
  · exact config_move hm

/-- A statement that has looked and waits on does not wait any more when its time is up. -/
theorem calls_make_expire (hd : s.config.lockTimeout = some timeout)
    (hq : s.calls[number]? = some ⟨.execute statement, .queued guard⟩)
    (hs : isQueued (make s (.resume number)) number = true) :
    (make (make s (.resume number)) (.expire number)).calls[number]? =
      some ⟨.execute statement,
        .finished (.error (.catalog (.lockTimeout statement.table timeout)))⟩ := by
  have hmoved : s.Moved number (make s (.resume number)) := moved_make .rests rfl
  obtain ⟨call, other, hafter⟩ := isQueued_eq_true_iff.mp hs
  obtain ⟨stage, hthere, -⟩ := hmoved.rank hq
  rw [hafter] at hthere
  cases hthere
  obtain ⟨u, hm, hu⟩ := exists_expire_of_queued hafter ((config_make s _).symm ▸ hd)
  rw [make_of_move hm]
  exact hu

/-- A task whose statement waits and goes on waiting has set the deadline. -/
theorem Goes.waits_of_queued (h : Goes now s task (.running course) t status')
    (hd : s.config.lockTimeout = some timeout) (hc : course.current = some number)
    (hq : s.calls[number]? = some ⟨.execute statement, .queued guard⟩)
    (hq' : t.calls[number]? = some ⟨.execute statement, .queued guard'⟩) :
    t = s ∧ course.deadline = none ∧
      status' = .running { course with deadline := some (now + timeout.milliseconds) } := by
  have hown {other : Nat} (hsame : course.current = some other) : other = number :=
    Option.some.inj (hsame.symm.trans hc)
  have hwaits {other : Nat} {activity : Activity} (hsame : course.current = some other)
      (ha : s.calls[other]? = some activity) : activity.stage = .queued guard := by
    obtain rfl := hown hsame
    rw [hq] at ha
    cases ha
    rfl
  cases h with
  -- In these ways the task has no call under way.
  | stopped ha hnone => cases hnone.symm.trans hc
  | ends hnone hp => cases hnone.symm.trans hc
  | calls hnone hp => cases hnone.symm.trans hc
  | abandoned ha hsame =>
    obtain rfl := hown hsame
    obtain ⟨u, hm, hu⟩ := exists_abort_of_queued hq
    rw [make_of_move hm, hu] at hq'
    cases hq'
  | waits hsame ha hunset hlimit =>
    rw [hd] at hlimit
    cases hlimit
    exact ⟨rfl, hunset, rfl⟩
  | hears hsame ha hn =>
    obtain rfl := hown hsame
    rw [isQueued_eq_true_iff.mpr ⟨_, _, hq'⟩] at hn
    cases hn
  | expires hsame ha hs hdue =>
    obtain rfl := hown hsame
    rw [calls_make_expire hd hq hs] at hq'
    cases hq'
  -- In all other ways the call stands elsewhere than in the queue.
  | looks due hsame ha hs hdue =>
    rw [hwaits hsame ha] at hs
    cases hs
  | reads hsame ha hs hdue ht =>
    rw [hwaits hsame ha] at hs
    cases hs
  | locks hsame ha hn => cases hwaits hsame ha
  | writes due hsame ha => cases hwaits hsame ha
  | stores hsame ha hdue => cases hwaits hsame ha
  | returns hsame ha => cases hwaits hsame ha
  | dropped hsame ha => cases hwaits hsame ha

/-- A call that comes to wait for a guard has looked for it. -/
theorem finding_of_asks (hm : s.Moved number t)
    (hn : ∀ call guard, s.calls[number]? ≠ some ⟨call, .queued guard⟩)
    (hq : t.calls[number]? = some ⟨call, .queued guard⟩) {begun : Call}
    (ha : s.calls[number]? = some ⟨begun, stage⟩) : ∃ answer, stage = .finding answer := by
  obtain ⟨stage', hthere, hle⟩ := hm.rank ha
  rw [hq] at hthere
  cases hthere
  cases stage with
  | finding answer => exact ⟨answer, rfl⟩
  | queued other => exact absurd ha (hn _ other)
  | _ => exact absurd hle (Nat.not_succ_le_self 1)

/-- A task whose call comes to wait for a guard has no deadline set for it. -/
theorem Goes.unset_of_asks (h : Goes now s task status t status') (hf : Fresh s status)
    (hn : ∀ call guard, s.calls[number]? ≠ some ⟨call, .queued guard⟩)
    (hq : t.calls[number]? = some ⟨call, .queued guard⟩) :
    ∃ course, status' = .running course ∧ course.current = some number ∧
      course.deadline = none := by
  obtain ⟨hand, hmoved, hbefore, -⟩ := h.exists_moved
  -- Only the call that moves can come to stand elsewhere than before.
  obtain rfl : number = hand := by
    by_contra hne
    exact hn call guard ((hmoved.others hne).symm.trans hq)
  have hrests (hsame : t = s) : False := hn call guard (hsame ▸ hq)
  have hfinding {begun : Call} {stage : Stage} (ha : s.calls[number]? = some ⟨begun, stage⟩) :
      ∃ answer, stage = .finding answer := finding_of_asks hmoved hn hq ha
  have hown {course : Course} {other : Nat} (hs : status = .running course)
      (hc : course.current = some other) : other = number := by
    rw [hs] at hbefore
    rcases hbefore with hsame | ⟨hnone, -⟩
    · exact Option.some.inj (hc.symm.trans hsame)
    · rw [Status.current, hc] at hnone
      cases hnone
  cases h with
  -- In these ways no call moves.
  | begins hs => exact (hrests rfl).elim
  | dismissed ha => exact (hrests rfl).elim
  | stopped ha hc => exact (hrests rfl).elim
  | ends hc hp => exact (hrests rfl).elim
  | looks due hc ha hs hd => exact (hrests rfl).elim
  | waits hc ha hd ht => exact (hrests rfl).elim
  | returns hc ha => exact (hrests rfl).elim
  | dropped hc ha => exact (hrests rfl).elim
  -- A call that is given up does not come to wait.
  | abandoned ha hc =>
    obtain rfl := hown rfl hc
    rcases make_cases s (.abort _) with he | hm
    · exact (hrests he).elim
    · obtain ⟨left, -, he⟩ := exists_of_abort hm
      rw [he] at hq
      cases stage_of_setStage hq
  -- A task begins each of its calls without a deadline.
  | calls hc hp =>
    rcases hbefore with hsome | ⟨-, rfl⟩
    · rw [Status.current, hc] at hsome
      cases hsome
    · exact ⟨_, rfl, rfl, rfl⟩
  -- A call that looks its table up has not asked yet, so no deadline runs for it.
  | reads hc ha hs hd ht =>
    obtain rfl := hown rfl hc
    obtain ⟨answer, hstage⟩ := hfinding ha
    rcases hf _ _ _ rfl hc ha with hunset | hrank
    · exact ⟨_, rfl, hc, hunset⟩
    · rw [hstage] at hrank
      cases hrank
  -- All other ways begin behind the lookup, from where no call comes to ask.
  | hears hc ha hs =>
    obtain rfl := hown rfl hc
    cases (hfinding ha).choose_spec
  | expires hc ha hs hd =>
    obtain rfl := hown rfl hc
    cases (hfinding ha).choose_spec
  | locks hc ha hs =>
    obtain rfl := hown rfl hc
    cases (hfinding ha).choose_spec
  | writes due hc ha =>
    obtain rfl := hown rfl hc
    cases (hfinding ha).choose_spec
  | stores hc ha hd =>
    obtain rfl := hown rfl hc
    cases (hfinding ha).choose_spec

/-! ## The clock and the deadline -/

variable {t u : Timeline}

/-- A task has a call under way that has asked for its guard at a time. Its deadline is set
at once, and the clock does not pass it. -/
inductive Timed (t : Timeline) (number asked : Nat) (timeout : Duration) : Prop where
  /-- The deadline is not set yet. -/
  | unset {index : Nat} {task : Task} {course : Course}
    (he : t.tasks[index]? = some (task, .running course)) (hc : course.current = some number)
    (hd : course.deadline = none) (hn : t.now = asked)
  /-- The deadline runs. -/
  | runs {index : Nat} {task : Task} {course : Course}
    (he : t.tasks[index]? = some (task, .running course)) (hc : course.current = some number)
    (hd : course.deadline = some (asked + timeout.milliseconds))
    (hn : t.now ≤ asked + timeout.milliseconds)

/-- A task whose call waits and that can do nothing has a deadline to come. -/
theorem deadline_of_stepTask {delays : Delays}
    (h : stepTask delays now s task (.running course) = none)
    (hd : s.config.lockTimeout = some timeout) (hc : course.current = some number)
    (hq : s.calls[number]? = some ⟨call, .queued guard⟩) :
    ∃ time, course.deadline = some time ∧ now < time := by
  simp only [stepTask, hc] at h
  split at h
  next => cases h
  next =>
    simp only [stepCall, hq, hd, Option.bind_eq_bind, Option.bind_some] at h
    cases hdeadline : course.deadline with
    | none =>
      rw [hdeadline] at h
      cases h
    | some time =>
      rw [hdeadline] at h
      simp only at h
      split at h
      next =>
        split at h
        next => cases h
        next hdue => exact ⟨time, rfl, Nat.lt_of_not_le (by simpa [hasCome] using hdue)⟩
      next => cases h

/-- The clock stops at every deadline that is to come. -/
theorem next_le {index time : Nat} (hnow : t.next? = some now)
    (he : t.tasks[index]? = some (task, .running course)) (hc : course.current = some number)
    (hq : t.system.calls[number]? = some ⟨call, .queued guard⟩)
    (hd : course.deadline = some time) (ht : t.now < time) : now ≤ time := by
  have hqueued : isQueued t.system number = true := isQueued_eq_true_iff.mpr ⟨_, _, hq⟩
  have htimes : time ∈ timesOf t.system (task, .running course) := by
    simp [timesOf, hc, hqueued, hd]
  have hcomes : time ∈ (t.tasks.flatMap (timesOf t.system)).filter fun time => t.now < time :=
    List.mem_filter.mpr
      ⟨List.mem_flatMap.mpr ⟨_, List.mem_of_getElem? he, htimes⟩, decide_eq_true ht⟩
  exact (List.min?_eq_some_iff.mp hnow).2 time hcomes

/-- Time passes for a statement that waits. -/
theorem Timed.tick (h : t.Timed number asked timeout) (hkept : t.Kept config)
    (hd : config.lockTimeout = some timeout) {tick : Tick} (ht : t.tick tick = some u)
    (hq : t.system.calls[number]? = some ⟨.execute statement, .queued guard⟩)
    (hq' : u.system.calls[number]? = some ⟨.execute statement, .queued guard⟩) :
    u.Timed number asked timeout := by
  rw [← hkept.reached.config_eq] at hd
  cases tick with
  | clock =>
    -- The clock moves only when no task can do anything, and not past a deadline that is set.
    obtain ⟨hstill, now, hnow, rfl⟩ := exists_of_tick_clock ht
    have hnone {index : Nat} {task : Task} {status : Status}
        (he : t.tasks[index]? = some (task, status)) :
        stepTask t.delays t.now t.system task status = none := by
      have hall := List.all_eq_true.mp hstill _ (List.mem_of_getElem? he)
      exact Option.isNone_iff_eq_none.mp hall
    cases h with
    | unset he hc hunset hn =>
      obtain ⟨time, hset, -⟩ := deadline_of_stepTask (hnone he) hd hc hq
      rw [hunset] at hset
      cases hset
    | runs he hc hset hn =>
      obtain ⟨time, hsame, hlt⟩ := deadline_of_stepTask (hnone he) hd hc hq
      rw [hset] at hsame
      cases hsame
      exact .runs he hc hset (next_le hnow he hc hq hset hlt)
  | task index delays =>
    obtain ⟨task, status, status', he, hg, hnow, htasks⟩ := exists_of_tick_task ht
    have hself : u.tasks[index]? = some (task, status') := by
      rw [htasks]
      exact List.getElem?_set_self (List.getElem?_eq_some_iff.mp he).1
    have hother {owner : Nat} {entry : Task × Status} (ho : t.tasks[owner]? = some entry)
        (hne : owner ≠ index) : u.tasks[owner]? = some entry := by
      rw [htasks, List.getElem?_set_ne (Ne.symm hne)]
      exact ho
    cases h with
    | @unset owner task course ho hc hunset hn =>
      by_cases hi : owner = index
      · subst hi
        rw [he] at ho
        cases ho
        -- The task that has asked sets its deadline, and does so at the instant at which it
        -- has asked.
        obtain ⟨-, -, rfl⟩ := hg.waits_of_queued hd hc hq hq'
        have hset := congrArg (fun start => some (start + timeout.milliseconds)) hn
        exact .runs hself hc hset (by omega)
      · exact .unset (hother ho hi) hc hunset (hnow.trans hn)
    | @runs owner task course ho hc hset hn =>
      by_cases hi : owner = index
      · subst hi
        rw [he] at ho
        cases ho
        -- A task whose deadline is set could only hear from the guard or give up.
        obtain ⟨-, hunset, -⟩ := hg.waits_of_queued hd hc hq hq'
        rw [hset] at hunset
        cases hunset
      · exact .runs (hother ho hi) hc hset (hnow.symm ▸ hn)

/-- Nobody waits for longer than the deadline allows. -/
theorem Timed.now_le (h : t.Timed number asked timeout) :
    t.now ≤ asked + timeout.milliseconds := by
  cases h with
  | unset he hc hunset hn => exact hn ▸ Nat.le_add_right _ _
  | runs he hc hset hn => exact hn

/-- A statement asks for a guard between two moments: it has looked for it at the most
before, and waits for it afterwards. -/
structure Queues (t u : Timeline) (number : Nat) (statement : Statement) (guard : Nat) :
    Prop where
  /-- It has not waited for a guard before. -/
  unasked : ∀ call stage, t.system.calls[number]? = some ⟨call, stage⟩ →
    ∃ answer, stage = .finding answer
  /-- It asks at one instant. -/
  instant : u.now = t.now
  /-- It waits for the guard. -/
  queued : u.system.calls[number]? = some ⟨.execute statement, .queued guard⟩

/-- Time begins to pass for a statement that comes to wait for a guard. -/
theorem Kept.queues (hkept : t.Kept config) {tick : Tick} (ht : t.tick tick = some u)
    (hn : ∀ call guard, t.system.calls[number]? ≠ some ⟨call, .queued guard⟩)
    (hq : u.system.calls[number]? = some ⟨.execute statement, .queued guard⟩) :
    t.Queues u number statement guard ∧ u.Timed number u.now timeout := by
  cases tick with
  | clock =>
    obtain ⟨-, now, -, rfl⟩ := exists_of_tick_clock ht
    exact absurd hq (hn _ guard)
  | task index delays =>
    obtain ⟨task, status, status', he, hg, hnow, htasks⟩ := exists_of_tick_task ht
    obtain ⟨hand, hmoved, -⟩ := hg.exists_moved
    obtain rfl : number = hand := by
      by_contra hne
      exact hn _ guard ((hmoved.others hne).symm.trans hq)
    obtain ⟨course, rfl, hc, hunset⟩ := hg.unset_of_asks (hkept.fresh he) hn hq
    have hself : u.tasks[index]? = some (task, .running course) := by
      rw [htasks]
      exact List.getElem?_set_self (List.getElem?_eq_some_iff.mp he).1
    exact ⟨⟨fun _ _ ha => finding_of_asks hmoved hn hq ha, hnow, hq⟩,
      .unset hself hc hunset rfl⟩

/-- A statement that waits before a tick and after it waits for the same guard. -/
theorem Kept.queued_of_tick (hkept : t.Kept config) {tick : Tick} (ht : t.tick tick = some u)
    (hq : t.system.calls[number]? = some ⟨call, .queued guard'⟩)
    (hq' : u.system.calls[number]? = some ⟨.execute statement, .queued guard⟩) :
    t.system.calls[number]? = some ⟨.execute statement, .queued guard⟩ := by
  obtain ⟨first, rfl⟩ := hkept.reached.exists_statement hq
  cases tick with
  | clock =>
    obtain ⟨-, now, -, rfl⟩ := exists_of_tick_clock ht
    exact hq'
  | task index delays =>
    obtain ⟨task, status, status', -, hg, -, -⟩ := exists_of_tick_task ht
    obtain ⟨hand, hmoved, -⟩ := hg.exists_moved
    obtain ⟨stage, hthere, hbound⟩ := hmoved.bound hq
    rw [hq'] at hthere
    cases hthere
    cases hbound with
    | queued => exact hq
    | past hpast =>
      have hrank := hpast.rank_eq
      cases hrank

/-- A statement waits for a guard all along some ticks. -/
def WaitsAlong (t : Timeline) (ticks : List Tick) (number : Nat) (statement : Statement)
    (guard : Nat) : Prop :=
  ∀ earlier u, earlier <+: ticks → t.pass earlier = some u →
    u.system.calls[number]? = some ⟨.execute statement, .queued guard⟩

/-- A tick more at the end is the tick of the timeline that the others lead to. -/
theorem pass_concat_eq_some_iff {ticks : List Tick} {tick : Tick} :
    t.pass (ticks ++ [tick]) = some u ↔ ∃ v, t.pass ticks = some v ∧ v.tick tick = some u := by
  rw [pass_append, Option.bind_eq_some_iff]
  refine exists_congr fun v => and_congr_right fun _ => ?_
  simp only [pass]
  cases v.tick tick with
  | none => simp
  | some w => simp

/-- A statement that waits for a guard has asked for it at some moment and has waited since,
and its deadline is that of this moment. -/
theorem Kept.exists_queues (hkept : t.Kept config) (hd : config.lockTimeout = some timeout)
    (hempty : t.system.calls = []) {ticks : List Tick} (hp : t.pass ticks = some u)
    (hq : u.system.calls[number]? = some ⟨.execute statement, .queued guard⟩) :
    ∃ front ask middle a b, ticks = front ++ ask :: middle ∧ t.pass front = some a ∧
      a.tick ask = some b ∧ b.pass middle = some u ∧ a.Queues b number statement guard ∧
      b.WaitsAlong middle number statement guard ∧ u.Timed number b.now timeout := by
  induction ticks using List.reverseRecOn generalizing u with
  | nil =>
    cases hp
    rw [hempty] at hq
    cases hq
  | append_singleton ticks tick ih =>
    obtain ⟨v, hv, hlast⟩ := pass_concat_eq_some_iff.mp hp
    have hkept' := hkept.pass hv
    by_cases hwaited : ∃ call guard, v.system.calls[number]? = some ⟨call, .queued guard⟩
    · obtain ⟨call, other, hother⟩ := hwaited
      have hqv := hkept'.queued_of_tick hlast hother hq
      obtain ⟨front, ask, middle, a, b, rfl, ha, hb, hmiddle, hqueues, halong, htimed⟩ :=
        ih hv hqv
      refine ⟨front, ask, middle ++ [tick], a, b, by simp, ha, hb,
        pass_concat_eq_some_iff.mpr ⟨v, hmiddle, hlast⟩, hqueues, ?_,
        htimed.tick hkept' hd hlast hqv hq⟩
      intro earlier w hw hpass
      rcases List.prefix_concat_iff.mp hw with rfl | hshort
      · rw [pass_concat_eq_some_iff.mpr ⟨v, hmiddle, hlast⟩] at hpass
        cases hpass
        exact hq
      · exact halong earlier w hshort hpass
    · have hn : ∀ call guard, v.system.calls[number]? ≠ some ⟨call, .queued guard⟩ :=
        fun call other hother => hwaited ⟨call, other, hother⟩
      obtain ⟨hqueues, htimed⟩ := hkept'.queues hlast hn hq
      refine ⟨ticks, tick, [], v, u, rfl, hv, hlast, rfl, hqueues, ?_, htimed⟩
      intro earlier w hw hpass
      obtain rfl := List.prefix_nil.mp hw
      cases hpass
      exact hq

end Timeline

end EmbeddedSql.Session
