import EmbeddedSql.Proofs.Session.Linearizability
import EmbeddedSql.Proofs.Session.Steps
import EmbeddedSql.Proofs.Session.Turns

/-!
# The passage of a statement through its guard

A statement that needs its table finds the guard, waits for it, is inside and leaves,
and it never goes back. What a statement that waits hears from the guard is all that
decides how it goes on, unless its time is up or it is given up; and a call that has
ended neither reads nor writes any more.
-/

namespace EmbeddedSql.Session

open Sql Lock

/-- Where a statement can stand that has heard from a guard. -/
inductive Stage.Past (guard : Nat) : Stage → Prop where
  /-- It is inside the guard. -/
  | inside {stage : Stage} (h : stage.spot = some (.inside guard)) : Past guard stage
  /-- It has ended. -/
  | ended {stage : Stage} (h : stage.Ended) : Past guard stage

/-- Where a statement can stand that has asked for a guard. -/
inductive Stage.Bound (guard : Nat) : Stage → Prop where
  /-- It waits for the guard. -/
  | queued : Bound guard (.queued guard)
  /-- It has heard from the guard. -/
  | past {stage : Stage} (h : stage.Past guard) : Bound guard stage

/-- Where a statement can stand that needs its table: it looks for the guard or is bound
to it. -/
def Stage.Placed (stage : Stage) : Prop :=
  (∃ answer, stage = .finding answer) ∨ ∃ guard, stage.Bound guard

namespace System

variable {s t u : System} {hand : Nat} {call : Call} {stage : Stage} {statement : Statement}
  {guard : Nat}

/-! ## What comes of a request -/

/-- A call that has asked for the commit lock waits for it or reads. -/
theorem exists_askCommit (hp : (s.calls[hand]?).map (·.call) = some call) (guard : Option Nat) :
    ∃ stage, (s.askCommit hand guard).calls[hand]? = some ⟨call, stage⟩ ∧
      stage.spot = guard.map .inside := by
  unfold System.askCommit
  simp only
  split
  · exact ⟨_, getElem?_setStage_self hp _, rfl⟩
  · exact ⟨_, getElem?_setStage_self hp _, rfl⟩

/-- A statement that has got access is inside the guard. -/
theorem exists_enter (hp : (s.calls[hand]?).map (·.call) = some call) (statement : Statement)
    (guard : Nat) : ∃ stage, (s.enter hand statement guard).calls[hand]? = some ⟨call, stage⟩ ∧
      stage.spot = some (.inside guard) := by
  have hcommit := exists_askCommit hp (some guard)
  cases statement with
  | select statement => exact ⟨_, getElem?_setStage_self hp _, rfl⟩
  | insert statement => exact hcommit
  | update statement => exact hcommit
  | delete statement => exact hcommit
  | create statement => exact hcommit
  | drop statement => exact hcommit

/-- A statement that has heard from a guard is inside, waits on, or misses its table. -/
theorem exists_afterGuard (hp : (s.calls[hand]?).map (·.call) = some call)
    (statement : Statement) (guard : Nat) (progress : Progress) :
    ∃ stage, (s.afterGuard hand statement guard progress).calls[hand]? = some ⟨call, stage⟩ ∧
      match progress with
      | .granted => stage.spot = some (.inside guard)
      | .failed => stage = .finished (missing statement)
      | .waiting _ => stage = .queued guard := by
  cases progress with
  | granted => exact exists_enter hp statement guard
  | failed => exact ⟨_, getElem?_setStage_self hp _, rfl⟩
  | waiting reached => exact ⟨_, getElem?_setStage_self hp _, rfl⟩

/-- A statement that has heard from a guard is bound to it. -/
theorem bound_afterGuard (hp : (s.calls[hand]?).map (·.call) = some call)
    (statement : Statement) (guard : Nat) (progress : Progress) :
    ∃ stage, (s.afterGuard hand statement guard progress).calls[hand]? = some ⟨call, stage⟩ ∧
      stage.Bound guard := by
  obtain ⟨stage, ha, hs⟩ := exists_afterGuard hp statement guard progress
  refine ⟨stage, ha, ?_⟩
  cases progress with
  | granted => exact .past (.inside hs)
  | failed =>
    rw [hs]
    exact .past (.ended (.finished _))
  | waiting reached =>
    rw [hs]
    exact .queued

/-- A call is there after a guard was changed. -/
theorem bound_askGuard (hp : (s.calls[hand]?).map (·.call) = some call) (statement : Statement)
    (guard : Nat) : ∃ stage, (s.askGuard hand statement guard).calls[hand]? = some ⟨call, stage⟩ ∧
      stage.Bound guard :=
  bound_afterGuard (s := s.setGuard guard _) hp statement guard _

/-! ## How a statement that waits goes on -/

/-- A call that stands in front of a guard waits for it. -/
theorem queued_of_spotOf {call : Call} (h : s.spotOf hand = some (call, .before guard)) :
    s.calls[hand]? = some ⟨call, .queued guard⟩ := by
  obtain ⟨⟨call', stage⟩, ha, h⟩ := Option.bind_eq_some_iff.mp h
  obtain ⟨spot, hs, he⟩ := Option.map_eq_some_iff.mp h
  cases he
  rw [ha]
  cases stage with
  | queued other =>
    cases hs
    rfl
  | committing other =>
    obtain ⟨_, _, he⟩ := Option.map_eq_some_iff.mp hs
    cases he
  | loading locks answer =>
    obtain ⟨_, _, he⟩ := Option.map_eq_some_iff.mp hs
    cases he
  | storing locks document rows answer =>
    obtain ⟨_, _, he⟩ := Option.map_eq_some_iff.mp hs
    cases he
  | finding answer => cases hs
  | finished result => cases hs
  | aborted => cases hs

/-- A statement that waits for a guard goes on as the guard answers, has waited too long, or
is given up. -/
theorem move_of_queued {move : Move} (hm : s.move move = some t)
    (ha : s.calls[hand]? = some ⟨.execute statement, .queued guard⟩)
    (hc : hand = move.caller s) :
    (∃ progress, ((s.guardAt guard).poll hand).2 = some progress ∧ move = .resume hand ∧
      t = (s.setGuard guard ((s.guardAt guard).poll hand).1).afterGuard hand statement guard
        progress) ∨
    (∃ timeout, move = .expire hand ∧ t.calls[hand]? = some ⟨.execute statement,
      .finished (.error (.catalog (.lockTimeout statement.table timeout)))⟩) ∨
    (move = .abort hand ∧ t.calls[hand]? = some ⟨.execute statement, .aborted⟩) := by
  have hp : (s.calls[hand]?).map (·.call) = some (.execute statement) :=
    congrArg (Option.map (·.call)) ha
  cases step_of_caller hm ha hc with
  | heard hprogress => exact .inl ⟨_, hprogress, rfl, rfl⟩
  | expired htimeout => exact .inr (.inl ⟨_, rfl, getElem?_setStage_self hp _⟩)
  | abandoned hleft hs =>
    exact .inr (.inr ⟨rfl, getElem?_setStage_self ((hleft.same hand).trans hp) _⟩)

/-- A statement that waits for a guard can look, and goes on as the guard answers. -/
theorem resume_of_poll (ha : s.calls[hand]? = some ⟨.execute statement, .queued guard⟩)
    {progress : Progress} (hp : ((s.guardAt guard).poll hand).2 = some progress) :
    s.move (.resume hand) = some ((s.setGuard guard ((s.guardAt guard).poll hand).1).afterGuard
      hand statement guard progress) :=
  (Step.heard hp).move ha nofun

/-- A statement that waits for a closed guard can look, and misses its table. -/
theorem exists_resume_of_closed
    (ha : s.calls[hand]? = some ⟨.execute statement, .queued guard⟩)
    (hc : (s.guardAt guard).Closes true) (hl : hand ∈ (s.guardAt guard).line) :
    ∃ t, s.move (.resume hand) = some t ∧
      t.calls[hand]? = some ⟨.execute statement, .finished (missing statement)⟩ := by
  have hp : (s.calls[hand]?).map (·.call) = some (.execute statement) :=
    congrArg (Option.map (·.call)) ha
  exact ⟨_, resume_of_poll ha (Guard.poll_of_mem_line hc hl),
    getElem?_setStage_self (s := s.setGuard guard _) hp _⟩

/-! ## How a statement that is inside goes on -/

/-- A call that has returned is past every guard. -/
theorem past_finish (hp : (s.calls[hand]?).map (·.call) = some call) (locks : Locks)
    (result : Except Error Reply) (guard : Nat) :
    ∃ stage, (s.finish hand locks result).calls[hand]? = some ⟨call, stage⟩ ∧
      stage.Past guard :=
  ⟨_, getElem?_finish hp locks result, .ended (.finished result)⟩

/-- A call that has read the document stays inside or ends. -/
theorem past_afterLoading (hp : (s.calls[hand]?).map (·.call) = some call) {locks : Locks}
    (hl : locks.guard.map Spot.inside = some (.inside guard))
    (answer : Except StorageError Document) :
    ∃ stage, (s.afterLoading hand call locks answer).calls[hand]? = some ⟨call, stage⟩ ∧
      stage.Past guard := by
  rcases afterLoading_cases s hand call locks answer with ⟨result, he⟩ |
    ⟨_, _, _, _, _, _, _, _, he⟩
  · rw [he]
    exact past_finish hp locks result guard
  · rw [he]
    exact ⟨_, getElem?_setStage_self hp _, .inside hl⟩

/-- A call that has written the changed document ends. -/
theorem ended_afterStoring (hp : (s.calls[hand]?).map (·.call) = some call) (locks : Locks)
    (rows : List Row) (answer : Except StorageError Unit) :
    ∃ result, (s.afterStoring hand call locks rows answer).calls[hand]? =
      some ⟨call, .finished result⟩ := by
  cases answer with
  | error e => exact ⟨_, getElem?_finish hp locks _⟩
  | ok =>
    obtain ⟨settled, hsettled, he⟩ := afterStoring_ok s hand call locks rows
    rw [he]
    exact ⟨_, getElem?_finish ((hsettled.same hand).trans hp) locks _⟩

/-- A call that is inside a guard stays there or ends. -/
theorem past_of_inside {move : Move} (hm : s.move move = some t)
    (ha : s.calls[hand]? = some ⟨call, stage⟩) (hs : stage.spot = some (.inside guard))
    (hc : hand = move.caller s) :
    ∃ stage', t.calls[hand]? = some ⟨call, stage'⟩ ∧ stage'.Past guard := by
  have hp : (s.calls[hand]?).map (·.call) = some call := congrArg (Option.map (·.call)) ha
  cases step_of_caller hm ha hc with
  | looked failure => cases hs
  | found answer => cases hs
  | heard hprogress => cases hs
  | expired htimeout => cases hs
  | locked hgranted =>
    exact ⟨_, getElem?_setStage_self (s := { s with commit := _ }) hp _, .inside hs⟩
  | unlocked hgranted => exact ⟨_, ha, .inside hs⟩
  | read failure => exact ⟨_, getElem?_setStage_self hp _, .inside hs⟩
  | loaded answer => exact past_afterLoading hp hs answer
  | written => exact ⟨_, getElem?_setStage_self (s := { s with stored := _ }) hp _, .inside hs⟩
  | failed e => exact ⟨_, getElem?_setStage_self hp _, .inside hs⟩
  | stored answer =>
    obtain ⟨result, hresult⟩ := ended_afterStoring hp _ _ answer
    exact ⟨_, hresult, .ended (.finished result)⟩
  | abandoned hleft _ =>
    exact ⟨_, getElem?_setStage_self ((hleft.same hand).trans hp) _, .ended .aborted⟩

/-- A call that has heard from a guard stays inside or ends. -/
theorem past_move {move : Move} (hm : s.move move = some t)
    (ha : s.calls[hand]? = some ⟨call, stage⟩) (hb : stage.Past guard) :
    ∃ stage', t.calls[hand]? = some ⟨call, stage'⟩ ∧ stage'.Past guard := by
  by_cases hc : hand = move.caller s
  · cases hb with
    | inside hs => exact past_of_inside hm ha hs hc
    | ended he => exact absurd hc (ne_caller_of_ended hm ha he)
  · exact ⟨stage, (others_move hm hc).trans ha, hb⟩

/-- A statement that is bound to a guard stays so. -/
theorem bound_move {move : Move} (hm : s.move move = some t)
    (ha : s.calls[hand]? = some ⟨.execute statement, stage⟩) (hb : stage.Bound guard) :
    ∃ stage', t.calls[hand]? = some ⟨.execute statement, stage'⟩ ∧ stage'.Bound guard := by
  by_cases hc : hand = move.caller s
  · cases hb with
    | past hb =>
      obtain ⟨stage', ha', hb'⟩ := past_move hm ha hb
      exact ⟨stage', ha', .past hb'⟩
    | queued =>
      have hp : (s.calls[hand]?).map (·.call) = some (.execute statement) :=
        congrArg (Option.map (·.call)) ha
      rcases move_of_queued hm ha hc with ⟨progress, _, _, rfl⟩ | ⟨timeout, _, ht⟩ | ⟨_, ht⟩
      · exact bound_afterGuard (s := s.setGuard guard _) hp statement guard progress
      · exact ⟨_, ht, .past (.ended (.finished _))⟩
      · exact ⟨_, ht, .past (.ended .aborted)⟩
  · exact ⟨stage, (others_move hm hc).trans ha, hb⟩

/-- A statement that has asked for a guard waits for that guard or is past it after any run. -/
theorem bound_run {moves : List Move} (hr : s.run moves = some t)
    (ha : s.calls[hand]? = some ⟨.execute statement, stage⟩) (hb : stage.Bound guard) :
    ∃ stage', t.calls[hand]? = some ⟨.execute statement, stage'⟩ ∧ stage'.Bound guard := by
  induction moves generalizing s stage with
  | nil =>
    cases hr
    exact ⟨stage, ha, hb⟩
  | cons move rest ih =>
    obtain ⟨next, hm, hrest⟩ := Option.bind_eq_some_iff.mp hr
    obtain ⟨stage', ha', hb'⟩ := bound_move hm ha hb
    exact ih hrest ha' hb'

/-! ## From the beginning -/

/-- A statement that needs its table begins by looking for the guard or by asking. -/
theorem placed_beginStatement (hp : (s.calls[hand]?).map (·.call) = some call)
    (ha : statement.AsksGuard) :
    ∃ stage, (s.beginStatement hand statement).calls[hand]? = some ⟨call, stage⟩ ∧
      stage.Placed := by
  unfold System.beginStatement
  split
  next => cases ha
  next =>
    split
    next number hg =>
      obtain ⟨stage, hstage, hb⟩ := bound_askGuard hp statement number
      exact ⟨stage, hstage, .inr ⟨number, hb⟩⟩
    next => exact ⟨_, getElem?_setStage_self hp _, .inl ⟨_, rfl⟩⟩

/-- A statement that has looked its table up is bound to the guard. -/
theorem bound_afterFinding (hp : (s.calls[hand]?).map (·.call) = some call)
    (statement : Statement) (answer : Except StorageError Document) :
    ∃ stage, (s.afterFinding hand statement answer).calls[hand]? = some ⟨call, stage⟩ ∧
      ∃ guard, stage.Bound guard := by
  cases answer with
  | error e => exact ⟨_, getElem?_setStage_self hp _, 0, .past (.ended (.finished _))⟩
  | ok document =>
    unfold System.afterFinding
    simp only
    split
    · obtain ⟨number, hg⟩ := exists_guardOf?_register s statement.table
      rw [← calls_register s statement.table] at hp
      simp only [hg]
      obtain ⟨stage, hstage, hb⟩ := bound_askGuard hp statement number
      exact ⟨stage, hstage, number, hb⟩
    · exact ⟨_, getElem?_setStage_self hp _, 0, .past (.ended (.finished _))⟩

/-- A statement that looks for its guard goes on doing so, asks for it, or ends. -/
theorem placed_of_finding {move : Move} (hm : s.move move = some t)
    {answer : Option (Except StorageError Document)}
    (ha : s.calls[hand]? = some ⟨.execute statement, .finding answer⟩)
    (hc : hand = move.caller s) :
    ∃ stage, t.calls[hand]? = some ⟨.execute statement, stage⟩ ∧
      stage.Placed := by
  have hp : (s.calls[hand]?).map (·.call) = some (.execute statement) :=
    congrArg (Option.map (·.call)) ha
  cases step_of_caller hm ha hc with
  | looked failure => exact ⟨_, getElem?_setStage_self hp _, .inl ⟨_, rfl⟩⟩
  | found answer =>
    obtain ⟨stage, hstage, hb⟩ := bound_afterFinding hp statement answer
    exact ⟨stage, hstage, .inr hb⟩
  | abandoned hleft _ =>
    refine ⟨_, getElem?_setStage_self ((hleft.same hand).trans hp) _, .inr ⟨0, ?_⟩⟩
    exact .past (.ended .aborted)

/-- A call stays what it is. -/
theorem exists_stage_move {move : Move} (hm : s.move move = some t)
    (ha : s.calls[hand]? = some ⟨call, stage⟩) :
    ∃ stage', t.calls[hand]? = some ⟨call, stage'⟩ := by
  have hp : (s.calls[hand]?).map (·.call) = some call := congrArg (Option.map (·.call)) ha
  have hsame : (t.calls[hand]?).map (·.call) = some call := by
    cases move with
    | begin begun =>
      have hl := (List.getElem?_eq_some_iff.mp ha).1
      rw [others_move hm (Nat.ne_of_lt hl)]
      exact hp
    | read number failure => exact ((concerns_readHappens hm).same hand).trans hp
    | write number failure =>
      obtain ⟨_, locks, document, rows, _, hcases⟩ := exists_of_writeHappens hm
      rcases hcases with ⟨_, rfl⟩ | hfailed
      · exact (map_call_setStage _ number hand _).trans hp
      · exact (hfailed.2.same hand).trans hp
    | resume number => exact ((concerns_resume hm).same hand).trans hp
    | expire number => exact ((concerns_expire hm).same hand).trans hp
    | abort number =>
      obtain ⟨left, hleft, rfl⟩ := exists_of_abort hm
      exact (map_call_setStage left number hand _).trans ((hleft.same hand).trans hp)
  obtain ⟨⟨call', stage'⟩, hstage, rfl⟩ := Option.map_eq_some_iff.mp hsame
  exact ⟨stage', hstage⟩

/-- A call stands somewhere after every run. -/
theorem exists_stage_run {moves : List Move} (hr : s.run moves = some t)
    (ha : s.calls[hand]? = some ⟨call, stage⟩) :
    ∃ stage', t.calls[hand]? = some ⟨call, stage'⟩ := by
  induction moves generalizing s stage with
  | nil =>
    cases hr
    exact ⟨stage, ha⟩
  | cons move rest ih =>
    obtain ⟨next, hm, hrest⟩ := Option.bind_eq_some_iff.mp hr
    obtain ⟨stage', ha'⟩ := exists_stage_move hm ha
    exact ih hrest ha'

/-- Only a call that begins is moved without being there before. -/
theorem exists_of_caller {move : Move} (hm : s.move move = some t)
    (hb : ∀ call, move ≠ .begin call) : ∃ activity, s.calls[move.caller s]? = some activity := by
  cases move with
  | begin call => exact absurd rfl (hb call)
  | read number failure =>
    obtain ⟨activity, ha, _⟩ := Option.bind_eq_some_iff.mp hm
    exact ⟨activity, ha⟩
  | write number failure =>
    obtain ⟨activity, ha, _⟩ := Option.bind_eq_some_iff.mp hm
    exact ⟨activity, ha⟩
  | resume number =>
    obtain ⟨activity, ha, _⟩ := Option.bind_eq_some_iff.mp hm
    exact ⟨activity, ha⟩
  | expire number =>
    obtain ⟨activity, ha, _⟩ := Option.bind_eq_some_iff.mp hm
    exact ⟨activity, ha⟩
  | abort number =>
    obtain ⟨activity, ha, _⟩ := Option.bind_eq_some_iff.mp hm
    exact ⟨activity, ha⟩

/-- Every statement that needs its table looks for the guard or is bound to it. -/
def Placed (s : System) : Prop :=
  ∀ {number : Nat} {statement : Statement} {stage : Stage},
    s.calls[number]? = some ⟨.execute statement, stage⟩ → statement.AsksGuard → stage.Placed

/-- A statement that has begun is there. -/
theorem call_of_begin {begun : Call} {activity : Activity}
    (ha : (s.begin begun).calls[s.calls.length]? = some activity) : activity.call = begun := by
  cases begun with
  | tableNames =>
    simp only [System.begin, List.getElem?_concat_length, Option.some.injEq] at ha
    rw [← ha]
  | schema table =>
    simp only [System.begin, List.getElem?_concat_length, Option.some.injEq] at ha
    rw [← ha]
  | execute statement =>
    let grown : System :=
      { s with calls := s.calls ++ [⟨.execute statement, .loading ⟨none, false⟩ none⟩] }
    have hsame := (concerns_beginStatement grown s.calls.length statement).same s.calls.length
    have hp : (grown.calls[s.calls.length]?).map (·.call) = some (.execute statement) := by
      simp [grown]
    rw [show (grown.beginStatement s.calls.length statement).calls[s.calls.length]? =
      some activity from ha, hp] at hsame
    exact Option.some.inj hsame

/-- After a move every statement that needs its table looks for the guard or is bound to it. -/
theorem Placed.move (h : s.Placed) {move : Move} (hm : s.move move = some t) : t.Placed := by
  intro number statement stage ha hasks
  by_cases hc : number = move.caller s
  · by_cases hb : ∃ begun, move = .begin begun
    · obtain ⟨begun, rfl⟩ := hb
      cases hm
      subst hc
      obtain rfl : Call.execute statement = begun := call_of_begin ha
      let grown : System :=
        { s with calls := s.calls ++ [⟨.execute statement, .loading ⟨none, false⟩ none⟩] }
      have hp : (grown.calls[s.calls.length]?).map (·.call) = some (.execute statement) := by
        simp [grown]
      obtain ⟨stage', hstage, hplaced⟩ := placed_beginStatement hp hasks
      have hsame : (grown.beginStatement s.calls.length statement).calls[s.calls.length]? =
          some ⟨.execute statement, stage⟩ := ha
      rw [hsame] at hstage
      cases hstage
      exact hplaced
    · obtain ⟨⟨call, before⟩, hbefore⟩ := exists_of_caller hm fun begun he => hb ⟨begun, he⟩
      rw [← hc] at hbefore
      obtain ⟨stage', hstage⟩ := exists_stage_move hm hbefore
      rw [ha] at hstage
      cases hstage
      -- A lookup leads to a guard or to an end, and whoever is bound to a guard stays so.
      rcases h hbefore hasks with ⟨answer, rfl⟩ | ⟨guard, hbound⟩
      · obtain ⟨stage', hstage, hplaced⟩ := placed_of_finding hm hbefore hc
        rw [ha] at hstage
        cases hstage
        exact hplaced
      · obtain ⟨stage', hstage, hbound'⟩ := bound_move hm hbefore hbound
        rw [ha] at hstage
        cases hstage
        exact .inr ⟨guard, hbound'⟩
  · rw [others_move hm hc] at ha
    exact h ha hasks

/-- In a system that is reached every statement that needs its table looks for the guard or is
bound to it. -/
theorem Reached.placed {config : Config} (h : Reached config s) : s.Placed := by
  induction h with
  | opened document _ => exact fun ha _ => by cases ha
  | move _ hm ih => exact ih.move hm
  | stored _ document ih => exact fun ha => ih ha

/-! ## Calls that neither read nor write -/

/-- A move is a read or a write of a call. -/
def Touches (number : Nat) (move : Move) : Prop :=
  ∃ failure, move = .read number failure ∨ move = .write number failure

/-- A read or a write of a call is a move of that call. -/
theorem caller_of_touches {move : Move} (h : Touches hand move) (s : System) :
    move.caller s = hand := by
  obtain ⟨failure, rfl | rfl⟩ := h
  · rfl
  · rfl

/-- A call that waits for a guard neither reads nor writes. -/
theorem not_touches_of_queued {move : Move} (hm : s.move move = some t)
    (ha : s.calls[hand]? = some ⟨call, .queued guard⟩) : ¬ Touches hand move := by
  rintro ⟨failure, rfl | rfl⟩
  · simp [System.move, System.readHappens, ha] at hm
  · simp [System.move, System.writeHappens, ha] at hm

/-- A call that has ended neither reads nor writes. -/
theorem not_touches_of_ended {moves : List Move} (hr : s.run moves = some t)
    (ha : s.calls[hand]? = some ⟨call, stage⟩) (he : stage.Ended) :
    ∀ move ∈ moves, ¬ Touches hand move := by
  induction moves generalizing s with
  | nil => exact nofun
  | cons move rest ih =>
    obtain ⟨next, hm, hrest⟩ := Option.bind_eq_some_iff.mp hr
    have hne := ne_caller_of_ended hm ha he
    refine List.forall_mem_cons.mpr ⟨fun ht => hne (caller_of_touches ht s).symm, ?_⟩
    exact ih hrest ((others_move hm hne).trans ha)

end System

end EmbeddedSql.Session
