import EmbeddedSql.Proofs.Session.Deadline
import EmbeddedSql.Proofs.Session.Progress
import EmbeddedSql.Proofs.Sql.Sizes

/-!
# How much a task still has to do

A call waits for a lookup, for its guard, for the commit lock, for a read and for a write, in
this order and for each at most once. So there is a number of things that a task still has to
do, which becomes less with everything that the task does and is not touched by what other
tasks do. When a task begins, it is limited by the size of what it asks for.
-/

namespace EmbeddedSql.Session

open Sql Lock

/-! ## What a call still waits for -/

/-- How many things a call still waits for, at the most. -/
def Stage.left : Stage → Nat
  | .finding _ => 5
  | .queued _ => 4
  | .committing _ => 3
  | .loading _ _ => 2
  | .storing _ _ _ _ => 1
  | .finished _ => 0
  | .aborted => 0

/-- A call waits for five things at the most. -/
theorem Stage.left_le (stage : Stage) : stage.left ≤ 5 := by
  cases stage with
  | finding answer => exact Nat.le_refl 5
  | queued guard => exact Nat.le_succ 4
  | committing guard => exact Nat.le_add_left 3 2
  | loading locks answer => exact Nat.le_add_left 2 3
  | storing locks document rows answer => exact Nat.le_add_left 1 4
  | _ => exact Nat.zero_le 5

/-- A call that has ended waits for nothing. -/
theorem Stage.Ended.left_eq {stage : Stage} (h : stage.Ended) : stage.left = 0 := by
  cases h with
  | finished result => rfl
  | aborted => rfl

/-- A call that is past its guard waits neither for it nor for a lookup. -/
theorem Stage.Past.left_le {stage : Stage} {guard : Nat} (h : stage.Past guard) :
    stage.left ≤ 3 := by
  cases h with
  | inside hs =>
    cases stage with
    | finding answer => cases hs
    | queued other => cases hs
    | committing other => exact Nat.le_refl 3
    | loading locks answer => exact Nat.le_succ 2
    | storing locks document rows answer => exact Nat.le_add_left 1 2
    | finished result => cases hs
    | aborted => cases hs
  | ended he =>
    rw [he.left_eq]
    exact Nat.zero_le 3

/-- A statement that has asked for its guard does not wait for a lookup. -/
theorem Stage.Bound.left_le {stage : Stage} {guard : Nat} (h : stage.Bound guard) :
    stage.left ≤ 4 := by
  cases h with
  | queued => exact Nat.le_refl 4
  | past hp => exact Nat.le_succ_of_le hp.left_le

/-- A call waits for an operation of the store that has begun. -/
def Stage.Awaits : Stage → Prop
  | .storing _ _ _ (some _) => True
  | stage => stage.Reads

/-- A call that reads waits for the store. -/
theorem Stage.Reads.awaits {stage : Stage} (h : stage.Reads) : stage.Awaits := by
  cases stage with
  | finding answer => exact h
  | loading locks answer => exact h
  | _ => exact h.elim

namespace System

variable {s : System} {config : Config} {number guard : Nat} {call : Call} {stage : Stage}
  {statement : Statement}

/-- A statement that has looked its table up goes on. -/
theorem exists_resume_of_finding {answer : Except StorageError Document}
    (ha : s.calls[number]? = some ⟨.execute statement, .finding (some answer)⟩) :
    ∃ t stage, s.move (.resume number) = some t ∧
      t.calls[number]? = some ⟨.execute statement, stage⟩ ∧ stage.left ≤ 4 := by
  have hp : (s.calls[number]?).map (·.call) = some (.execute statement) :=
    congrArg (Option.map (·.call)) ha
  obtain ⟨stage, hstage, _, hbound⟩ := bound_afterFinding hp statement answer
  exact ⟨_, stage, (Step.found answer).move ha nofun, hstage, hbound.left_le⟩

/-- A call that has read the document goes on. -/
theorem exists_resume_of_loading {locks : Locks} {answer : Except StorageError Document}
    (ha : s.calls[number]? = some ⟨call, .loading locks (some answer)⟩) :
    ∃ t stage, s.move (.resume number) = some t ∧ t.calls[number]? = some ⟨call, stage⟩ ∧
      stage.left ≤ 1 := by
  have hp : (s.calls[number]?).map (·.call) = some call := congrArg (Option.map (·.call)) ha
  have hm := (Step.loaded answer).move ha nofun
  rcases afterLoading_cases s number call locks answer with ⟨result, he⟩ |
    ⟨_, _, _, _, _, _, _, _, he⟩
  · rw [he] at hm
    exact ⟨_, _, hm, getElem?_finish hp locks result, Nat.zero_le 1⟩
  · rw [he] at hm
    exact ⟨_, _, hm, getElem?_setStage_self hp _, Nat.le_refl 1⟩

/-- A call that has written goes on, and that is its end. -/
theorem exists_resume_of_storing {locks : Locks} {document : Document} {rows : List Row}
    {answer : Except StorageError Unit}
    (ha : s.calls[number]? = some ⟨call, .storing locks document rows (some answer)⟩) :
    ∃ t stage, s.move (.resume number) = some t ∧ t.calls[number]? = some ⟨call, stage⟩ ∧
      stage.left = 0 := by
  have hp : (s.calls[number]?).map (·.call) = some call := congrArg (Option.map (·.call)) ha
  obtain ⟨result, hstage⟩ := ended_afterStoring hp locks rows answer
  exact ⟨_, _, (Step.stored answer).move ha nofun, hstage, rfl⟩

/-- A call that asks for the commit lock again waits on for it or reads. -/
theorem exists_resume_of_committing {guard : Option Nat}
    (ha : s.calls[number]? = some ⟨call, .committing guard⟩) :
    ∃ t stage, s.move (.resume number) = some t ∧ t.calls[number]? = some ⟨call, stage⟩ ∧
      (stage = .committing guard ∨ stage.left = 2) := by
  have hp : (s.calls[number]?).map (·.call) = some call := congrArg (Option.map (·.call)) ha
  by_cases hgranted : (s.commit.poll number).2 = .granted
  · exact ⟨_, _, (Step.locked hgranted).move ha nofun,
      getElem?_setStage_self (s := { s with commit := _ }) hp _, .inr rfl⟩
  · exact ⟨_, _, (Step.unlocked hgranted).move ha nofun, ha, .inl rfl⟩

end System

namespace Timeline

open Session.System

variable {s t : System} {config : Config} {number : Nat} {call : Call} {stage : Stage}
  {now : Nat} {task : Task} {status status' : Status} {course : Course}

/-- A call that reads gets the answer of the store if it has none. -/
theorem exists_make_read (ha : s.calls[number]? = some ⟨call, stage⟩) (hs : stage.Reads) :
    (stage.left = 5 ∧ ∃ answer, (make s (.read number none)).calls[number]? =
        some ⟨call, .finding (some answer)⟩) ∨
      stage.left = 2 ∧ ∃ locks answer, (make s (.read number none)).calls[number]? =
        some ⟨call, .loading locks (some answer)⟩ := by
  have hp : (s.calls[number]?).map (·.call) = some call := congrArg (Option.map (·.call)) ha
  cases stage with
  | finding answer =>
    refine .inl ⟨rfl, ?_⟩
    cases answer with
    | none =>
      rw [make_of_move ((Step.looked none).move ha nofun)]
      exact ⟨_, getElem?_setStage_self hp _⟩
    | some answer =>
      rcases make_cases s (.read number none) with he | hm
      · rw [he]
        exact ⟨answer, ha⟩
      · cases step_of_caller hm ha rfl
  | loading locks answer =>
    refine .inr ⟨rfl, locks, ?_⟩
    cases answer with
    | none =>
      rw [make_of_move ((Step.read none).move ha nofun)]
      exact ⟨_, getElem?_setStage_self hp _⟩
    | some answer =>
      rcases make_cases s (.read number none) with he | hm
      · rw [he]
        exact ⟨answer, ha⟩
      · cases step_of_caller hm ha rfl
  | _ => exact hs.elim

/-- A call that writes gets the answer of the store. -/
theorem exists_make_write {locks : Locks} {document : Document} {rows : List Row}
    (ha : s.calls[number]? = some ⟨call, .storing locks document rows none⟩) :
    ∃ answer, (make s (.write number none)).calls[number]? =
      some ⟨call, .storing locks document rows (some answer)⟩ := by
  have hp : (s.calls[number]?).map (·.call) = some call := congrArg (Option.map (·.call)) ha
  rw [make_of_move (Step.written.move ha nofun)]
  exact ⟨_, getElem?_setStage_self (s := { s with stored := document }) hp _⟩

/-- A call that has read waits for less. -/
theorem left_of_reads (h : Reached config s) (ha : s.calls[number]? = some ⟨call, stage⟩)
    (hs : stage.Reads) :
    ∃ stage', (make (make s (.read number none)) (.resume number)).calls[number]? =
      some ⟨call, stage'⟩ ∧ stage'.left < stage.left := by
  rcases exists_make_read ha hs with ⟨hleft, answer, hread⟩ | ⟨hleft, locks, answer, hread⟩
  · have hmoved : s.Moved number (make s (.read number none)) := moved_make .rests rfl
    obtain ⟨statement, rfl⟩ := (hmoved.reached h).execute_of_finding hread
    obtain ⟨t, stage', hm, hstage, hle⟩ := exists_resume_of_finding hread
    rw [make_of_move hm, hleft]
    exact ⟨stage', hstage, Nat.lt_succ_of_le hle⟩
  · obtain ⟨t, stage', hm, hstage, hle⟩ := exists_resume_of_loading hread
    rw [make_of_move hm, hleft]
    exact ⟨stage', hstage, Nat.lt_succ_of_le hle⟩

/-- A call that has heard from its guard does not wait for it. -/
theorem left_of_hears (h : Reached config s) {guard : Nat}
    (ha : s.calls[number]? = some ⟨call, .queued guard⟩)
    (hq : isQueued (make s (.resume number)) number = false) :
    ∃ stage', (make s (.resume number)).calls[number]? = some ⟨call, stage'⟩ ∧
      stage'.left < 4 := by
  obtain ⟨statement, rfl⟩ := h.exists_statement ha
  have hmoved : s.Moved number (make s (.resume number)) := moved_make .rests rfl
  obtain ⟨stage', hstage, hbound⟩ := hmoved.bound ha
  refine ⟨stage', hstage, ?_⟩
  cases hbound with
  | queued =>
    rw [isQueued_eq_true_iff.mpr ⟨_, _, hstage⟩] at hq
    cases hq
  | past hpast => exact Nat.lt_succ_of_le hpast.left_le

/-- A call that has the commit lock does not wait for it. -/
theorem left_of_locks {guard : Option Nat}
    (ha : s.calls[number]? = some ⟨call, .committing guard⟩)
    (hq : isCommitting (make s (.resume number)) number = false) :
    ∃ stage', (make s (.resume number)).calls[number]? = some ⟨call, stage'⟩ ∧
      stage'.left < 3 := by
  obtain ⟨t, stage', hm, hstage, hcame⟩ := exists_resume_of_committing ha
  rw [make_of_move hm] at hq ⊢
  refine ⟨stage', hstage, ?_⟩
  rcases hcame with rfl | hleft
  · simp [isCommitting, hstage] at hq
  · rw [hleft]
    exact Nat.lt_succ_self 2

/-! ## Times that are set -/

/-- A time is set for a task only if there is something to wait for: the end of a read or of a
write that is due, or the end of a wait that is limited. -/
structure Punctual (config : Config) (s : System) (status : Status) : Prop where
  /-- What is due is due for a call that waits for the store. -/
  due : ∀ {course : Course} {time : Nat}, status = .running course → course.due = some time →
    ∃ number activity, course.current = some number ∧ s.calls[number]? = some activity ∧
      activity.stage.Awaits
  /-- A deadline is set only if the settings limit how long a call may wait. -/
  limited : ∀ {course : Course} {time : Nat}, status = .running course →
    course.deadline = some time → config.lockTimeout ≠ none

/-- No time is set for a task that has not begun. -/
theorem punctual_waiting (config : Config) (s : System) : Punctual config s .waiting := by
  refine ⟨fun he _ => ?_, fun he _ => ?_⟩
  · cases he
  · cases he

/-- No time is set for a task that has ended. -/
theorem punctual_ended (config : Config) (s : System) (time : Nat) (ending : Ending) :
    Punctual config s (.ended time ending) := by
  refine ⟨fun he _ => ?_, fun he _ => ?_⟩
  · cases he
  · cases he

/-- A task for which no time is set. -/
theorem punctual_of_unset (config : Config) (s : System) (hdue : course.due = none)
    (hdeadline : course.deadline = none) : Punctual config s (.running course) := by
  refine ⟨fun he hd => ?_, fun he hd => ?_⟩
  · cases he
    rw [hdue] at hd
    cases hd
  · cases he
    rw [hdeadline] at hd
    cases hd

/-- No time is set for a task that begins. -/
theorem punctual_beginTask (config : Config) (s : System) (now : Nat) (request : Request) :
    Punctual config s (beginTask now request) := by
  cases request with
  | run template parameters =>
    simp only [beginTask]
    split
    · exact punctual_of_unset config s rfl rfl
    · exact punctual_ended config s _ _
  | runAll script =>
    simp only [beginTask]
    split
    · exact punctual_of_unset config s rfl rfl
    · exact punctual_ended config s _ _
  | tables => exact punctual_of_unset config s rfl rfl

/-- No time is set for a task whose call has returned. -/
theorem punctual_afterCall (config : Config) (s : System) (now : Nat) (request : Request)
    (course : Course) (result : Except Error Reply) :
    Punctual config s (afterCall now request course result) := by
  cases result with
  | error e => exact punctual_ended config s _ _
  | ok reply =>
    cases reply with
    | rows rows => exact punctual_of_unset config s rfl rfl
    | names names => exact punctual_ended config s _ _
    | columns columns => exact punctual_of_unset config s rfl rfl

/-- Nothing is due for a call that does not wait for the store. -/
theorem Punctual.due_eq_none (h : Punctual config s (.running course))
    (hc : course.current = some number) (ha : s.calls[number]? = some ⟨call, stage⟩)
    (hs : ¬ stage.Awaits) : course.due = none := by
  cases hd : course.due with
  | none => rfl
  | some time =>
    obtain ⟨other, activity, hother, hthere, hawaits⟩ := h.due rfl hd
    rw [hc] at hother
    cases hother
    rw [ha] at hthere
    cases hthere
    exact absurd hawaits hs

/-- A task for which nothing is due keeps the limits of its waits. -/
theorem Punctual.of_due_eq_none (h : Punctual config s (.running course)) {later : Course}
    (hdue : later.due = none) (hdeadline : later.deadline = course.deadline) :
    Punctual config t (.running later) := by
  refine ⟨fun he hd => ?_, fun he hd => ?_⟩
  · cases he
    rw [hdue] at hd
    cases hd
  · cases he
    exact h.limited rfl (hdeadline.symm.trans hd)

/-- A task for which something becomes due keeps the limits of its waits. -/
theorem Punctual.of_awaits (h : Punctual config s (.running course)) {later : Course}
    (hc : later.current = some number) (ha : t.calls[number]? = some ⟨call, stage⟩)
    (hs : stage.Awaits) (hdeadline : later.deadline = course.deadline) :
    Punctual config t (.running later) := by
  refine ⟨fun he _ => ?_, fun he hd => ?_⟩
  · cases he
    exact ⟨number, _, hc, ha, hs⟩
  · cases he
    exact h.limited rfl (hdeadline.symm.trans hd)

/-- What a task does keeps its times in order. -/
theorem Goes.punctual (h : Goes now s task status t status') (hconfig : s.config = config)
    (hp : Punctual config s status) : Punctual config t status' := by
  cases h with
  | begins hs => exact punctual_beginTask config s now task.request
  | dismissed ha => exact punctual_ended config s _ _
  | stopped ha hc => exact punctual_ended config s _ _
  | abandoned ha hc => exact punctual_ended config _ _ _
  | ends hc hpending => exact punctual_ended config s _ _
  | calls hc hpending => exact punctual_of_unset config _ rfl rfl
  | looks due hc ha hs hd => exact hp.of_awaits hc ha hs.awaits rfl
  | reads hc ha hs hd ht => exact hp.of_due_eq_none rfl rfl
  | @waits course number guard begun timeout hc ha hd ht =>
    refine ⟨fun he hdue => ?_, fun _ _ => ?_⟩
    · cases he
      rw [hp.due_eq_none hc ha id] at hdue
      cases hdue
    · rw [← hconfig, ht]
      exact Option.some_ne_none timeout
  | hears hc ha hq => exact hp.of_due_eq_none (hp.due_eq_none hc ha id) rfl
  | expires hc ha hq hd => exact hp.of_due_eq_none (hp.due_eq_none hc ha id) rfl
  | locks hc ha hq => exact hp.of_due_eq_none (hp.due_eq_none hc ha id) rfl
  | writes due hc ha =>
    obtain ⟨answer, hwritten⟩ := exists_make_write ha
    exact hp.of_awaits hc hwritten trivial rfl
  | stores hc ha hd => exact hp.of_due_eq_none rfl rfl
  | returns hc ha => exact punctual_afterCall config s now task.request _ _
  | dropped hc ha => exact punctual_ended config s _ _

/-- What other calls do is nothing to the times of a task. -/
theorem Punctual.others (h : Punctual config s status) {hand : Nat} (hm : s.Moved hand t)
    (hne : ∀ call, status.current = some call → call ≠ hand) : Punctual config t status := by
  refine ⟨fun {course time} he hd => ?_, h.limited⟩
  obtain ⟨number, activity, hc, ha, hs⟩ := h.due he hd
  subst he
  exact ⟨number, activity, hc, (hm.others (hne number hc)).trans ha, hs⟩

/-- A time that has come is set and not later than now. -/
theorem exists_of_hasCome {time : Option Nat} (h : hasCome now time = true) :
    ∃ instant, time = some instant ∧ instant ≤ now := by
  cases time with
  | none => cases h
  | some instant => exact ⟨instant, rfl, of_decide_eq_true h⟩

/-! ## Effort -/

/-- One as long as a time is not set. -/
def unset : Option Nat → Nat
  | none => 1
  | some _ => 0

/-- How many steps a call still takes at a stage, at the most. -/
def stageEffort (course : Course) : Stage → Nat
  | .finding _ => 10 + unset course.due
  | .queued _ => 8 + unset course.deadline
  | .committing _ => 6
  | .loading _ _ => 4 + unset course.due
  | .storing _ _ _ none => 3
  | .storing _ _ _ (some _) => 2
  | .finished _ => 0
  | .aborted => 0

/-- How many steps a task still takes, at the most. -/
def effort (s : System) (task : Task) : Status → Nat
  | .waiting => 13 * size task.request + 2
  | .running course =>
    13 * course.pending.length + course.current.elim 1 fun call =>
      2 + (s.calls[call]?).elim 0 fun activity => stageEffort course activity.stage
  | .ended _ _ => 0

/-- A time that is not set counts as one at the most. -/
theorem unset_le (time : Option Nat) : unset time ≤ 1 := by
  cases time with
  | none => exact Nat.le_refl 1
  | some time => exact Nat.zero_le 1

/-- A call takes two steps for each thing that it still waits for, and one more at the most. -/
theorem stageEffort_le (course : Course) (stage : Stage) :
    stageEffort course stage ≤ 2 * stage.left + 1 := by
  have hdue := unset_le course.due
  have hdeadline := unset_le course.deadline
  cases stage with
  | storing locks document rows answer =>
    cases answer with
    | none => exact Nat.le_refl 3
    | some answer => exact Nat.le_succ 2
  | _ =>
    simp only [stageEffort, Stage.left]
    omega

/-- A call is given at least two steps for each thing that it still waits for. -/
theorem le_stageEffort (course : Course) (stage : Stage) :
    2 * stage.left ≤ stageEffort course stage := by
  cases stage with
  | storing locks document rows answer =>
    cases answer with
    | none => exact Nat.le_succ 2
    | some answer => exact Nat.le_refl 2
  | _ =>
    simp only [stageEffort, Stage.left]
    omega

/-- A call that waits for less takes fewer steps, whatever times are set. -/
theorem stageEffort_lt {stage' : Stage} (h : stage'.left < stage.left) (course later : Course) :
    stageEffort later stage' < stageEffort course stage := by
  have hless := stageEffort_le later stage'
  have hmore := le_stageEffort course stage
  omega

/-- A task without a call under way has the statements that are still to come ahead of it. -/
theorem effort_of_current_eq_none (s : System) (task : Task) (hc : course.current = none) :
    effort s task (.running course) = 13 * course.pending.length + 1 := by
  rw [effort, hc]
  rfl

/-- A task with a call under way has what that call still takes ahead of it as well. -/
theorem effort_of_current (task : Task) (hc : course.current = some number)
    (ha : s.calls[number]? = some ⟨call, stage⟩) :
    effort s task (.running course) =
      13 * course.pending.length + (2 + stageEffort course stage) := by
  rw [effort, hc, Option.elim_some, ha, Option.elim_some]

/-- A task under way has something to do. -/
theorem effort_pos (s : System) (task : Task) (course : Course) :
    0 < effort s task (.running course) := by
  rw [effort]
  cases course.current with
  | none => exact Nat.succ_pos _
  | some call =>
    rw [Option.elim_some]
    omega

/-- A task whose call takes fewer steps than before has less to do. -/
theorem effort_lt_of_stageEffort (task : Task) {later : Course} {stage' : Stage}
    (hc : course.current = some number) (ha : s.calls[number]? = some ⟨call, stage⟩)
    (hc' : later.current = some number) (ha' : t.calls[number]? = some ⟨call, stage'⟩)
    (hpending : later.pending = course.pending)
    (h : stageEffort later stage' < stageEffort course stage) :
    effort t task (.running later) < effort s task (.running course) := by
  rw [effort_of_current task hc ha, effort_of_current task hc' ha', hpending]
  omega

/-- A task whose call waits for less has less to do. -/
theorem effort_lt_of_left (task : Task) {later : Course} (hc : course.current = some number)
    (ha : s.calls[number]? = some ⟨call, stage⟩) (hc' : later.current = some number)
    (hpending : later.pending = course.pending)
    (h : ∃ stage', t.calls[number]? = some ⟨call, stage'⟩ ∧ stage'.left < stage.left) :
    effort t task (.running later) < effort s task (.running course) := by
  obtain ⟨stage', ha', hleft⟩ := h
  exact effort_lt_of_stageEffort task hc ha hc' ha' hpending (stageEffort_lt hleft course later)

/-- No parameter is longer than all of them together. -/
theorem le_sizeOfValues {parameters : List Value} {value : Value} (h : value ∈ parameters) :
    value.display.length + 3 ≤ sizeOfValues parameters := by
  induction parameters with
  | nil => cases h
  | cons first rest ih =>
    rw [sizeOfValues]
    rcases List.mem_cons.mp h with rfl | hm
    · exact Nat.le_add_right _ _
    · exact Nat.le_trans (ih hm) (Nat.le_add_left _ _)

/-- A bound template has no more statements than the size of the request tells. -/
theorem length_le_size {template script : List Char} {parameters : List Value}
    (h : bindTemplate template parameters = .ok script) :
    script.length ≤ size (.run template parameters) := by
  have hfill : Template.fill parameters (Template.parts template) = .ok script :=
    Result.mapError_eq_ok_iff.mp h
  have hwrite {index : Nat} {text : List Char}
      (hw : Template.write parameters index = .ok text) :
      text.length ≤ sizeOfValues parameters := by
    obtain ⟨value, hvalue, hliteral⟩ := Template.write_eq_ok_iff.mp hw
    have hmem : value ∈ parameters := Template.mem_of_parameter? hvalue
    exact Nat.le_trans (Template.length_literal_le hliteral) (le_sizeOfValues hmem)
  calc script.length
      ≤ (Template.parts template).length * (1 + sizeOfValues parameters) :=
        Template.length_fill_le hwrite hfill
    _ ≤ template.length * (1 + sizeOfValues parameters) :=
        Nat.mul_le_mul_right _ (Template.length_partsFrom_le .plain template)
    _ = size (.run template parameters) := by
        rw [size, Nat.mul_add, Nat.mul_one, Nat.mul_comm template.length]

/-- A task that has begun takes no more steps than one that may have that many calls. -/
theorem effort_beginTask_lt (s : System) (now : Nat) (task : Task) :
    effort s task (beginTask now task.request) < effort s task .waiting := by
  have hcalls {statements : List Statement} (hl : statements.length ≤ size task.request) :
      effort s task (.running (courseOf (statements.map .execute))) < effort s task .waiting := by
    rw [effort_of_current_eq_none s task rfl, effort, courseOf, List.length_map]
    omega
  have hended {time : Nat} {ending : Ending} :
      effort s task (.ended time ending) < effort s task .waiting := Nat.succ_pos _
  cases hr : task.request with
  | run template parameters =>
    simp only [beginTask]
    split
    next statements hs =>
      obtain ⟨script, hscript, hparse⟩ := Result.bind_eq_ok_iff.mp hs
      refine hcalls ?_
      rw [hr]
      exact Nat.le_trans (length_parseScript_le hparse) (length_le_size hscript)
    next => exact hended
  | runAll script =>
    simp only [beginTask]
    split
    next statements hs =>
      refine hcalls ?_
      rw [hr]
      exact length_parseScript_le hs
    next => exact hended
  | tables =>
    rw [beginTask, effort_of_current_eq_none s task rfl, effort, hr]
    exact Nat.lt_succ_self _

/-- A task has less to do with everything that it does. -/
theorem Goes.effort_lt (h : Goes now s task status t status') (hr : Reached config s)
    (hp : Punctual config s status) : effort t task status' < effort s task status := by
  cases h with
  | begins hs => exact effort_beginTask_lt s now task
  | dismissed ha => exact Nat.succ_pos _
  | stopped ha hc => exact effort_pos s task _
  | abandoned ha hc => exact effort_pos s task _
  | ends hc hpending => exact effort_pos s task _
  | dropped hc ha => exact effort_pos s task _
  | @calls course call rest hc hpending =>
    -- A call takes eleven steps at the most when it begins, and one statement less counts for
    -- thirteen.
    obtain ⟨stage, hthere⟩ := exists_begin s call
    have hstage := stageEffort_le ⟨rest, course.done, some s.calls.length, none, none⟩ stage
    have hleft := stage.left_le
    rw [effort_of_current task rfl hthere, effort_of_current_eq_none s task hc, hpending,
      List.length_cons]
    simp only
    omega
  | @looks course number activity due hc ha hs hd =>
    refine effort_lt_of_stageEffort task hc ha hc ha rfl ?_
    obtain ⟨call, stage⟩ := activity
    cases stage with
    | finding answer => simp [stageEffort, hd, unset]
    | loading locks answer => simp [stageEffort, hd, unset]
    | _ => exact hs.elim
  | reads hc ha hs hd ht => exact effort_lt_of_left task hc ha hc rfl (left_of_reads hr ha hs)
  | waits hc ha hd ht =>
    refine effort_lt_of_stageEffort task hc ha hc ha rfl ?_
    simp [stageEffort, hd, unset]
  | hears hc ha hq => exact effort_lt_of_left task hc ha hc rfl (left_of_hears hr ha hq)
  | expires hc ha hq hd =>
    obtain ⟨statement, rfl⟩ := hr.exists_statement ha
    -- A deadline is set only where the settings limit the wait, so the call does return here.
    obtain ⟨time, hset, -⟩ := exists_of_hasCome hd
    obtain ⟨timeout, htimeout⟩ := Option.ne_none_iff_exists'.mp (hp.limited rfl hset)
    have hexpired := calls_make_expire (hr.config_eq ▸ htimeout) ha hq
    exact effort_lt_of_left task hc ha hc rfl ⟨_, hexpired, Nat.succ_pos 3⟩
  | locks hc ha hq => exact effort_lt_of_left task hc ha hc rfl (left_of_locks ha hq)
  | writes due hc ha =>
    obtain ⟨answer, hwritten⟩ := exists_make_write ha
    exact effort_lt_of_stageEffort task hc ha hc hwritten rfl (Nat.lt_succ_self 2)
  | stores hc ha hd =>
    obtain ⟨t, stage', hm, hstage, hleft⟩ := exists_resume_of_storing ha
    rw [make_of_move hm]
    exact effort_lt_of_left task hc ha hc rfl ⟨stage', hstage, hleft ▸ Nat.succ_pos 0⟩
  | @returns course number call result hc ha =>
    have hcalls {done : List (List Row)} :
        effort s task (.running { courseOf course.pending with done }) <
          effort s task (.running course) := by
      rw [effort_of_current_eq_none s task rfl, effort_of_current task hc ha]
      change 13 * course.pending.length + 1 < _
      omega
    cases result with
    | error e => exact effort_pos s task course
    | ok reply =>
      cases reply with
      | rows rows => exact hcalls
      | names names => exact effort_pos s task course
      | columns columns => exact hcalls

end Timeline

end EmbeddedSql.Session
