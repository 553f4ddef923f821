import EmbeddedSql.Proofs.Session.Deadline
import EmbeddedSql.Proofs.Session.Failure

/-!
# Statements that time out

A statement that fails because its table was in use for too long has asked for the guard
exactly as long ago as the settings let it wait, and all this time somebody was ahead of it.
A statement that is let in does not fail so, whatever it waits for then, and neither does
one that asks for no guard.
-/

namespace EmbeddedSql.Session.Timeline

open Sql Lock Session.System

variable {s t : System} {task : Task} {status status' : Status} {config : Config}
  {now number guard : Nat} {call : Call} {stage : Stage} {statement : Statement}
  {table : String} {timeout limit : Duration}

/-! ## Whose time is up -/

/-- A call that has waited too long after a move other than its deadline's has done so
before. -/
theorem timedOut_of_make {move : Move} (h : (make s move).TimedOut number table limit)
    (hne : move ≠ .expire number) : s.TimedOut number table limit := by
  rcases make_cases s move with he | hm
  · rwa [he] at h
  · rcases timedOut_of_move hm h with hbefore | ⟨hexpire, -⟩
    · exact hbefore
    · exact absurd hexpire hne

/-- A task whose statement has waited too long. -/
structure Expires (now : Nat) (s : System) (status : Status) (number : Nat)
    (statement : Statement) (guard : Nat) : Prop where
  /-- The task has the statement under way, and its deadline has come. -/
  due : ∃ course, status = .running course ∧ course.current = some number ∧
    hasCome now course.deadline = true
  /-- The statement waits. -/
  queued : s.calls[number]? = some ⟨.execute statement, .queued guard⟩
  /-- It waits on when it looks. -/
  looked : isQueued (make s (.resume number)) number = true

/-- A call comes to have waited too long only when its deadline has come and it still has to
wait. -/
theorem Goes.expires_of_timedOut (h : Goes now s task status t status')
    (hr : System.Reached config s) (ht : t.TimedOut number table limit)
    (hn : ¬ s.TimedOut number table limit) :
    config.lockTimeout = some limit ∧ ∃ statement guard, statement.table = table ∧
      Expires now s status number statement guard := by
  cases h with
  -- In these ways no call moves.
  | begins hs => exact absurd ht hn
  | dismissed ha => exact absurd ht hn
  | stopped ha hc => exact absurd ht hn
  | ends hc hp => exact absurd ht hn
  | looks due hc ha hs hd => exact absurd ht hn
  | waits hc ha hd hlimit => exact absurd ht hn
  | returns hc ha => exact absurd ht hn
  | dropped hc ha => exact absurd ht hn
  | abandoned ha hc => exact absurd (timedOut_of_make ht nofun) hn
  | @calls course call rest hc hp =>
    have hbegin : s.move (.begin call) = some (s.begin call) := rfl
    rcases timedOut_of_move hbegin ht with hbefore | ⟨hexpire, -⟩
    · exact absurd hbefore hn
    · cases hexpire
  | reads hc ha hs hd htime =>
    exact absurd (timedOut_of_make (timedOut_of_make ht nofun) nofun) hn
  | hears hc ha hs => exact absurd (timedOut_of_make ht nofun) hn
  | locks hc ha hs => exact absurd (timedOut_of_make ht nofun) hn
  | writes due hc ha => exact absurd (timedOut_of_make ht nofun) hn
  | stores hc ha hd => exact absurd (timedOut_of_make ht nofun) hn
  | @expires course other guard begun hc ha hlooked hd =>
    -- The task looks at the guard once more before it gives up.
    have hlater : ¬ (make s (.resume other)).TimedOut number table limit :=
      fun hlater => hn (timedOut_of_make hlater nofun)
    rcases make_cases (make s (.resume other)) (.expire other) with he | hm
    · rw [he] at ht
      exact absurd ht hlater
    · rcases timedOut_of_move hm ht with hbefore | ⟨hexpire, hlimit, _, _, hqueued, htable⟩
      · exact absurd hbefore hlater
      · cases hexpire
        rw [config_make, hr.config_eq] at hlimit
        obtain ⟨_, rfl⟩ := hr.exists_statement ha
        obtain ⟨stage, hthere, -⟩ :=
          (moved_make .rests rfl : s.Moved number (make s (.resume number))).rank ha
        rw [hqueued] at hthere
        cases hthere
        exact ⟨hlimit, _, guard, htable, ⟨course, rfl, hc, hd⟩, ha, hlooked⟩

/-! ## Who was ahead -/

variable {t u v : Timeline} {asked : Nat}

/-- A statement waits for the guard of its table, and somebody is ahead of it. -/
structure Waits (t : Timeline) (number : Nat) (statement : Statement) (guard : Nat) : Prop where
  /-- It waits for a guard. -/
  queued : t.system.calls[number]? = some ⟨.execute statement, .queued guard⟩
  /-- The guard is that of its table. -/
  known : t.system.guardOf? statement.table = some guard
  /-- A statement inside that does not go together with it is ahead of it, or one that has
  asked before and still waits. -/
  barred : t.system.Barred number statement guard

/-- If somebody is ahead of a statement that waits, somebody has been before. -/
theorem Kept.barred_of_tick (hkept : t.Kept config) (hd : config.lockTimeout = some timeout)
    {tick : Tick} (ht : t.tick tick = some u)
    (hq : t.system.calls[number]? = some ⟨.execute statement, .queued guard⟩)
    (hq' : u.system.calls[number]? = some ⟨.execute statement, .queued guard⟩)
    (hb : u.system.closedAt guard = false ∧ u.system.Barred number statement guard) :
    t.system.closedAt guard = false ∧ t.system.Barred number statement guard := by
  cases tick with
  | clock =>
    obtain ⟨-, now, -, rfl⟩ := exists_of_tick_clock ht
    exact hb
  | task index delays =>
    obtain ⟨task, status, status', he, hg, -, -⟩ := exists_of_tick_task ht
    obtain ⟨hand, hmoved, hbefore, -⟩ := hg.exists_moved
    by_cases hne : number = hand
    · subst hne
      have hcurrent : status.current = some number := by
        refine hbefore.resolve_right fun hnew => ?_
        have hl := (List.getElem?_eq_some_iff.mp hq).1
        exact Nat.ne_of_lt hl hnew.2
      cases status with
      | waiting => cases hcurrent
      | ended time ending => cases hcurrent
      | running course =>
        rw [← hkept.reached.config_eq] at hd
        rw [(hg.waits_of_queued hd hcurrent hq hq').1] at hb
        exact hb
    · exact hmoved.barred hkept.reached hne hq hb

/-- Somebody has been ahead of a statement all along since it asked. -/
theorem Kept.barred_of_pass (hkept : t.Kept config) (hd : config.lockTimeout = some timeout)
    {ticks : List Tick} (hp : t.pass ticks = some u)
    (halong : t.WaitsAlong ticks number statement guard)
    (hb : u.system.closedAt guard = false ∧ u.system.Barred number statement guard)
    {earlier : List Tick} (he : earlier <+: ticks) (hv : t.pass earlier = some v) :
    v.system.closedAt guard = false ∧ v.system.Barred number statement guard := by
  induction ticks generalizing t earlier v with
  | nil =>
    obtain rfl := List.prefix_nil.mp he
    rw [hp] at hv
    cases hv
    exact hb
  | cons tick rest ih =>
    obtain ⟨next, hn, hrest⟩ := Option.bind_eq_some_iff.mp hp
    have hlater : next.WaitsAlong rest number statement guard := fun shorter w hs hw =>
      halong (tick :: shorter) w ((List.prefix_cons_inj tick).mpr hs)
        (by rw [Timeline.pass, hn, Option.bind_some, hw])
    cases earlier with
    | nil =>
      cases hv
      have hq := halong [] _ List.nil_prefix rfl
      have hq' := hlater [] next List.nil_prefix rfl
      have hbarred := ih (hkept.tick hn) hrest hlater List.nil_prefix rfl
      exact hkept.barred_of_tick hd hn hq hq' hbarred
    | cons first shorter =>
      obtain ⟨rfl, hs⟩ := List.cons_prefix_cons.mp he
      obtain ⟨other, ho, hv⟩ := Option.bind_eq_some_iff.mp hv
      rw [hn] at ho
      cases ho
      exact ih (hkept.tick hn) hrest hlater hs hv

/-! ## When it happens -/

/-- A call comes to have waited too long by a tick at which its deadline has come. -/
theorem Kept.exists_expires (hkept : t.Kept config) {tick : Tick} (ht : t.tick tick = some u)
    (hout : u.system.TimedOut number table limit) (hn : ¬ t.system.TimedOut number table limit) :
    config.lockTimeout = some limit ∧ u.now = t.now ∧
      ∃ (index : Nat) (task : Task) (status : Status) (statement : Statement) (guard : Nat),
        t.tasks[index]? = some (task, status) ∧ statement.table = table ∧
        Expires t.now t.system status number statement guard := by
  cases tick with
  | clock =>
    obtain ⟨-, now, -, rfl⟩ := exists_of_tick_clock ht
    exact absurd hout hn
  | task index delays =>
    obtain ⟨task, status, status', he, hg, hnow, -⟩ := exists_of_tick_task ht
    obtain ⟨hlimit, statement, guard, htable, hx⟩ := hg.expires_of_timedOut hkept.reached hout hn
    exact ⟨hlimit, hnow, index, task, status, statement, guard, he, htable, hx⟩

/-- A deadline that has come has come just now. -/
theorem Timed.now_eq (h : t.Timed number asked timeout) (hkept : t.Kept config) {index : Nat}
    (he : t.tasks[index]? = some (task, status))
    (hx : Expires t.now t.system status number statement guard) :
    t.now = asked + timeout.milliseconds := by
  obtain ⟨course, rfl, hc, hdue⟩ := hx.due
  cases h with
  | unset ho ho' hunset hn =>
    obtain rfl := hkept.distinct he ho hc ho'
    rw [he] at ho
    cases ho
    rw [hunset] at hdue
    cases hdue
  | runs ho ho' hset hn =>
    obtain rfl := hkept.distinct he ho hc ho'
    rw [he] at ho
    cases ho
    rw [hset] at hdue
    exact Nat.le_antisymm hn (of_decide_eq_true hdue)

/-- A statement asks for its guard, waits for it through some ticks, and fails at another
because it has waited for too long. -/
structure TimesOut (a b c e : Timeline) (middle : List Tick) (number : Nat)
    (statement : Statement) (guard : Nat) (timeout : Duration) : Prop where
  /-- It asks for the guard between the first two moments. -/
  asks : a.Queues b number statement guard
  /-- All along it waits, and somebody is ahead of it. -/
  waits : ∀ earlier v, earlier <+: middle → b.pass earlier = some v →
    v.Waits number statement guard
  /-- The clock shows how long it has waited. -/
  deadline : c.now = b.now + timeout.milliseconds
  /-- It fails at this instant. -/
  instant : e.now = c.now
  /-- It has failed. -/
  failed : e.system.TimedOut number statement.table timeout

/-- A statement that fails because its table was in use for too long fails exactly when its
deadline has come, and somebody was ahead of it all the time. -/
theorem Kept.exists_timesOut (hkept : t.Kept config) (hd : config.lockTimeout = some timeout)
    (hempty : t.system.calls = []) {ticks : List Tick} (hp : t.pass ticks = some u)
    (hout : u.system.TimedOut number table limit) :
    limit = timeout ∧ ∃ statement guard front ask middle expire back a b c e,
      statement.table = table ∧ ticks = front ++ ask :: (middle ++ expire :: back) ∧
      t.pass front = some a ∧ a.tick ask = some b ∧ b.pass middle = some c ∧
      c.tick expire = some e ∧ TimesOut a b c e middle number statement guard timeout := by
  -- By induction from the last tick: the error was there before it, or comes about by it.
  induction ticks using List.reverseRecOn generalizing u with
  | nil =>
    cases hp
    obtain ⟨call, ha⟩ := hout
    rw [hempty] at ha
    cases ha
  | append_singleton ticks tick ih =>
    obtain ⟨v, hv, hlast⟩ := pass_concat_eq_some_iff.mp hp
    have hkept' := hkept.pass hv
    by_cases hbefore : v.system.TimedOut number table limit
    · obtain ⟨hlimit, statement, guard, front, ask, middle, expire, back, a, b, c, e, htable,
        rfl, hrest⟩ := ih hv hbefore
      exact ⟨hlimit, statement, guard, front, ask, middle, expire, back ++ [tick], a, b, c, e,
        htable, by simp, hrest⟩
    · obtain ⟨hlimit, hinstant, index, task, status, statement, guard, he, htable, hx⟩ :=
        hkept'.exists_expires hlast hout hbefore
      rw [hd] at hlimit
      obtain rfl := Option.some.inj hlimit
      obtain ⟨front, ask, middle, a, b, rfl, ha, hb, hmiddle, hqueues, halong, htimed⟩ :=
        hkept.exists_queues hd hempty hv hx.queued
      obtain ⟨stage, hpoll⟩ := hkept'.reached.poll_of_resume hx.queued hx.looked
      have hbarred := hkept'.reached.barred_of_poll hx.queued hpoll
      have hkeptb := (hkept.pass ha).tick hb
      refine ⟨rfl, statement, guard, front, ask, middle, tick, [], a, b, v, u, htable, by simp,
        ha, hb, hmiddle, hlast, hqueues, ?_, htimed.now_eq hkept' he hx, hinstant,
        htable ▸ hout⟩
      intro earlier w hw hpass
      have hq := halong earlier w hw hpass
      have hwbarred := hkeptb.barred_of_pass hd hmiddle halong hbarred hw hpass
      exact ⟨hq, (hkeptb.pass hpass).reached.orderly.guardOf?_of_queued hq hwbarred.1,
        hwbarred.2⟩

/-! ## Whose time is never up -/

/-- Calls stay what they are and do not go back. -/
theorem rank_tick {tick : Tick} (ht : t.tick tick = some u)
    (ha : t.system.calls[number]? = some ⟨call, stage⟩) :
    ∃ stage', u.system.calls[number]? = some ⟨call, stage'⟩ ∧ stage.rank ≤ stage'.rank := by
  cases tick with
  | clock =>
    obtain ⟨-, now, -, rfl⟩ := exists_of_tick_clock ht
    exact ⟨stage, ha, Nat.le_refl _⟩
  | task index delays =>
    obtain ⟨task, status, status', -, hg, -, -⟩ := exists_of_tick_task ht
    obtain ⟨hand, hmoved, -⟩ := hg.exists_moved
    exact hmoved.rank ha

/-- No call gets farther from its end by ticks. -/
theorem rank_pass {ticks : List Tick} (hp : t.pass ticks = some u)
    (ha : t.system.calls[number]? = some ⟨call, stage⟩) :
    ∃ stage', u.system.calls[number]? = some ⟨call, stage'⟩ ∧ stage.rank ≤ stage'.rank := by
  induction ticks generalizing t stage with
  | nil =>
    cases hp
    exact ⟨stage, ha, Nat.le_refl _⟩
  | cons tick rest ih =>
    obtain ⟨next, hn, hrest⟩ := Option.bind_eq_some_iff.mp hp
    obtain ⟨between, hb, hle⟩ := rank_tick hn ha
    obtain ⟨stage', ha', hle'⟩ := ih hrest hb
    exact ⟨stage', ha', Nat.le_trans hle hle'⟩

/-- A call that is past its guard, if it has one, does not come to have waited too long. -/
theorem Kept.not_timedOut_of_rank (hkept : t.Kept config) {ticks : List Tick}
    (hp : t.pass ticks = some u) (ha : t.system.calls[number]? = some ⟨call, stage⟩)
    (hrank : stage.rank = 2) (hn : ¬ t.system.TimedOut number table limit) :
    ¬ u.system.TimedOut number table limit := by
  induction ticks generalizing t stage with
  | nil =>
    cases hp
    exact hn
  | cons tick rest ih =>
    obtain ⟨next, hnext, hrest⟩ := Option.bind_eq_some_iff.mp hp
    obtain ⟨stage', ha', hle⟩ := rank_tick hnext ha
    rw [hrank] at hle
    refine ih (hkept.tick hnext) hrest ha' (Nat.le_antisymm stage'.rank_le hle) fun hout => ?_
    obtain ⟨-, -, _, _, _, _, _, -, -, hx⟩ := hkept.exists_expires hnext hout hn
    have hq := hx.queued
    rw [ha] at hq
    cases hq
    cases hrank

/-- A statement that has been let in does not come to have waited too long. -/
theorem Kept.not_timedOut_of_hasAccess (hkept : t.Kept config) {ticks : List Tick}
    (hp : t.pass ticks = some u) (ha : t.system.HasAccess number statement guard) :
    ¬ u.system.TimedOut number table limit := by
  obtain ⟨⟨call, stage⟩, hthere, hspot⟩ := Option.bind_eq_some_iff.mp ha
  obtain ⟨spot, hs, he⟩ := Option.map_eq_some_iff.mp hspot
  cases he
  have hpast : stage.Past guard := .inside hs
  exact hkept.not_timedOut_of_rank hp hthere hpast.rank_eq (not_timedOut_of_spot hthere hs)

/-- A statement that waits for a guard does not make a table. -/
theorem Kept.asksGuard_of_queued (hkept : t.Kept config)
    (hq : t.system.calls[number]? = some ⟨.execute statement, .queued guard⟩) :
    statement.AsksGuard := by
  cases statement with
  | create create => cases hkept.reached.rank_create hq
  | _ => trivial

end EmbeddedSql.Session.Timeline

namespace EmbeddedSql.Session

/-- A call writes, or has written and has not returned yet, at a stage. -/
def Stage.Writes : Stage → Prop
  | .storing .. => True
  | _ => False

namespace Timeline

open Sql Lock Session.System

/-- In every timeline of a handle on which a statement may wait for so long, a statement that
fails because its table was in use has asked for the guard of its table exactly so long
before, and at every moment in between a statement with which it does not go together was
inside, or one that had asked before still waited; it never writes. A statement that has been
let in does not fail so, however long the store takes and whatever it waits for then. And no
statement waits for longer. -/
theorem lockTimeout_at_deadline {config : Config} {timeout : Duration}
    (hd : config.lockTimeout = some timeout) (delays : Delays) (document : Document)
    {known : List String} (hk : known.Nodup) (tasks : List Task) {ticks : List Tick}
    {t : Timeline} (hp : (opened delays config document known tasks).pass ticks = some t)
    (number : Nat) :
    (∀ call table limit, t.system.calls[number]? =
        some ⟨call, .finished (.error (.catalog (.lockTimeout table limit)))⟩ →
      ∃ statement, call = .execute statement ∧ statement.AsksGuard ∧ table = statement.table ∧
        limit = timeout ∧
        (∃ guard front ask middle expire back a b c e,
          ticks = front ++ ask :: (middle ++ expire :: back) ∧
          (opened delays config document known tasks).pass front = some a ∧
          a.tick ask = some b ∧ b.pass middle = some c ∧ c.tick expire = some e ∧
          TimesOut a b c e middle number statement guard timeout) ∧
        ∀ earlier u, earlier <+: ticks →
          (opened delays config document known tasks).pass earlier = some u →
          ∀ activity, u.system.calls[number]? = some activity → ¬ activity.stage.Writes) ∧
    (∀ earlier u, earlier <+: ticks →
      (opened delays config document known tasks).pass earlier = some u →
      ∀ statement guard, u.system.HasAccess number statement guard →
        ∀ table limit, ¬ t.system.TimedOut number table limit) ∧
    ∀ statement guard,
      t.system.calls[number]? = some ⟨.execute statement, .queued guard⟩ →
      ∃ front ask middle a b, ticks = front ++ ask :: middle ∧
        (opened delays config document known tasks).pass front = some a ∧
        a.tick ask = some b ∧ b.pass middle = some t ∧ a.Queues b number statement guard ∧
        t.now ≤ b.now + timeout.milliseconds := by
  have hkept := kept_opened delays config document hk tasks
  have hlater {earlier : List Tick} {u : Timeline} (he : earlier <+: ticks)
      (hu : (opened delays config document known tasks).pass earlier = some u) :
      ∃ later, u.pass later = some t := by
    obtain ⟨later, rfl⟩ := he
    rw [pass_append, hu] at hp
    exact ⟨later, hp⟩
  refine ⟨fun call table limit ha => ?_,
    fun earlier u he hu statement guard hi table limit => ?_, fun statement guard hq => ?_⟩
  · have hout : t.system.TimedOut number table limit := ⟨call, ha⟩
    obtain ⟨hlimit, statement, guard, front, ask, middle, expire, back, a, b, c, e, htable, hsplit,
      hfront, hask, hmiddle, hexpire, htimes⟩ := hkept.exists_timesOut hd rfl hp hout
    have hkeptb := (hkept.pass hfront).tick hask
    have hback : b.pass (middle ++ expire :: back) = some t := by
      rw [hsplit, pass_append, hfront, Option.bind_some, Timeline.pass, hask] at hp
      exact hp
    obtain ⟨stage, hthere, -⟩ := rank_pass hback htimes.asks.queued
    rw [ha] at hthere
    cases hthere
    refine ⟨statement, rfl, hkeptb.asksGuard_of_queued htimes.asks.queued, htable.symm, hlimit,
      ⟨guard, front, ask, middle, expire, back, a, b, c, e, hsplit, hfront, hask, hmiddle,
        hexpire, htimes⟩, ?_⟩
    intro earlier u he hu activity hactivity hwrites
    obtain ⟨call, stage⟩ := activity
    obtain ⟨later, hlast⟩ := hlater he hu
    cases stage with
    -- A statement that writes is past its guard, from where no way leads to this error.
    | storing locks document rows answer =>
      exact (hkept.pass hu).not_timedOut_of_rank hlast hactivity rfl
        (not_timedOut hactivity (by simp)) hout
    | _ => exact hwrites
  · obtain ⟨later, hlast⟩ := hlater he hu
    exact (hkept.pass hu).not_timedOut_of_hasAccess hlast hi
  · obtain ⟨front, ask, middle, a, b, hsplit, hfront, hask, hmiddle, hqueues, -, htimed⟩ :=
      hkept.exists_queues hd rfl hp hq
    exact ⟨front, ask, middle, a, b, hsplit, hfront, hask, hmiddle, hqueues, htimed.now_le⟩

/-- A selection may wait for ten milliseconds and comes when an insertion into its table has
begun to write, which takes fifty: it fails ten milliseconds after it has come, and the
insertion does not fail so. -/
theorem lockTimeout_at_deadline_of_insert :
    let document : Document := ⟨[("t", .ofSchema [⟨"a", .text⟩])], List.pairwise_singleton _ _⟩
    let slow : Delays := ⟨0, 50⟩
    let tasks : List Task :=
      [⟨0, .runAll "INSERT INTO t VALUES ('x')".toList, none⟩,
        ⟨1, .runAll "SELECT * FROM t".toList, none⟩]
    let ticks : List Tick :=
      [.task 0 slow, .task 0 slow, .task 0 slow, .task 0 slow, .task 0 slow, .clock,
        .task 1 slow, .task 1 slow, .task 1 slow, .clock, .task 1 slow]
    ∃ t, (opened slow ⟨some ⟨10⟩⟩ document ["t"] tasks).pass ticks = some t ∧ t.now = 11 ∧
      t.system.TimedOut 1 "t" ⟨10⟩ ∧
      (∃ statement guard middle a b c e, b.pass middle = some c ∧
        TimesOut a b c e middle 1 statement guard ⟨10⟩) ∧
      ∀ table limit, ¬ t.system.TimedOut 0 table limit := by
  intro document slow tasks ticks
  have hrun : ((opened slow ⟨some ⟨10⟩⟩ document ["t"] tasks).pass ticks).map
      (fun t => (t.now, t.system.failureOf 1)) =
      some (11, some (.catalog (.lockTimeout "t" ⟨10⟩))) := by
    decide +kernel
  have hinside : ((opened slow ⟨some ⟨10⟩⟩ document ["t"] tasks).pass (ticks.take 2)).map
      (fun t => t.system.spotOf 0) =
      some (some (.execute (.insert ⟨"t", .all, [[.text "x"]], .named []⟩), .inside 0)) := by
    decide +kernel
  obtain ⟨t, ht, hends⟩ := Option.map_eq_some_iff.mp hrun
  obtain ⟨u, hu, haccess⟩ := Option.map_eq_some_iff.mp hinside
  obtain ⟨hnow, hfails⟩ := Prod.mk.inj hends
  have htheorem := lockTimeout_at_deadline rfl slow document (List.nodup_singleton "t") tasks ht
  obtain ⟨call, hcall⟩ := returned_of_failureOf hfails
  obtain ⟨statement, -, -, -, -, ⟨guard, _, _, middle, _, _, a, b, c, e, -, -, -, hmiddle, -,
    htimes⟩, -⟩ := (htheorem 1).1 call "t" ⟨10⟩ hcall
  exact ⟨t, ht, hnow, ⟨call, hcall⟩, ⟨statement, guard, middle, a, b, c, e, hmiddle, htimes⟩,
    (htheorem 0).2.1 _ u (List.take_prefix 2 ticks) hu _ 0 haccess⟩

end Timeline

end EmbeddedSql.Session
