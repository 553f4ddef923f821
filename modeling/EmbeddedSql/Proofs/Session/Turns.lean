import EmbeddedSql.Proofs.Lock.Lines
import EmbeddedSql.Proofs.Session.Course
import EmbeddedSql.Proofs.Session.Permits

/-!
# What a move does at the locks

A move of a call does one thing at most at each guard and at the commit lock: it asks,
looks, withdraws, gives back or shuts. A call that is left waiting stands in line at the
lock for which it waits. So in every state that is reached those who wait stand in line,
in the order in which they came.
-/

namespace EmbeddedSql.Session.System

open Sql Lock

variable {s t u : System} {hand : Nat} {call : Call}

/-! ## One thing at each lock -/

/-- A call that waits at a stage stands in line at the lock. -/
def Stands (s : System) (number : Nat) : Stage → Prop
  | .queued guard => number ∈ (s.guardAt guard).line
  | .committing _ => number ∈ s.commit.line
  | _ => True

/-- A call has done one thing at most at each lock. -/
structure Handles (hand : Nat) (s t : System) : Prop where
  /-- What it has done at the guards. -/
  guards : ∀ number, (s.guardAt number).Acts hand (t.guardAt number)
  /-- What it has done at the commit lock. -/
  commit : s.commit.Acts hand t.commit

/-- A call has taken its turn: it has done one thing at most at each lock, and it stands in
line where it waits. -/
structure Turn (hand : Nat) (s t : System) : Prop extends Handles hand s t where
  /-- Where the call waits. -/
  stands : ∀ {activity}, t.calls[hand]? = some activity → t.Stands hand activity.stage

/-- The guards are as they were. -/
theorem acts_of_guardAt_eq (h : ∀ number, t.guardAt number = s.guardAt number) (number : Nat) :
    (s.guardAt number).Acts hand (t.guardAt number) := by
  rw [h]
  exact .rests

/-- The locks are as they were. -/
theorem handles_of_guardAt_eq (h : ∀ number, t.guardAt number = s.guardAt number)
    (hc : t.commit = s.commit) : Handles hand s t :=
  ⟨acts_of_guardAt_eq h, by rw [hc]; exact .rests⟩

/-- A call that is put at a stage stands there. -/
theorem stage_of_setStage {stage : Stage} {activity : Activity}
    (h : (s.setStage hand stage).calls[hand]? = some activity) : activity.stage = stage := by
  simp only [setStage, List.getElem?_modify_eq] at h
  obtain ⟨before, _, rfl⟩ := Option.map_eq_some_iff.mp h
  rfl

/-- A call goes on to a stage. -/
theorem Handles.setStage (h : Handles hand s t) {stage : Stage} (hs : t.Stands hand stage) :
    Turn hand s (t.setStage hand stage) where
  guards := h.guards
  commit := h.commit
  stands ha := by
    rw [stage_of_setStage ha]
    cases stage with
    | queued guard => exact hs
    | committing guard => exact hs
    | _ => trivial

/-- A guard that is changed for a call. -/
theorem handles_setGuard {number : Nat} {guard : Guard Nat}
    (h : (s.guardAt number).Acts hand guard) : Handles hand s (s.setGuard number guard) where
  guards other := by
    rw [guardAt_setGuard]
    split
    next he =>
      rw [← he.1]
      exact h
    next => exact .rests
  commit := .rests

/-- What is done behind a change that leaves the locks alone. -/
theorem Handles.trans_of_eq (h : Handles hand t u)
    (hg : ∀ number, t.guardAt number = s.guardAt number) (hc : t.commit = s.commit) :
    Handles hand s u where
  guards number := by
    rw [← hg]
    exact h.guards number
  commit := by
    rw [← hc]
    exact h.commit

/-- Giving a table a guard leaves the commit lock as it is. -/
theorem commit_register (s : System) (table : String) : (s.register table).commit = s.commit := by
  unfold System.register
  split
  · rfl
  · rfl

/-- A call gives its locks back. -/
theorem handles_unlock (s : System) (hand : Nat) (locks : Locks) :
    Handles hand s (s.unlock hand locks) := by
  obtain ⟨guard, commit⟩ := locks
  have hreleased : s.commit.Acts hand
      (if commit = true then { s with commit := s.commit.release } else s).commit := by
    cases commit with
    | false => exact .rests
    | true => exact .leaves
  cases guard with
  | none =>
    refine ⟨acts_of_guardAt_eq fun number => ?_, hreleased⟩
    cases commit with
    | false => rfl
    | true => rfl
  | some number =>
    have hleft := handles_setGuard (.leaves : (s.guardAt number).Acts hand _)
    refine ⟨fun other => ?_, hreleased⟩
    rw [guardAt_congr (guards_unlock s hand number commit)]
    exact hleft.guards other

/-- A call closes a guard and gives its locks back. -/
theorem handles_retire (s : System) (hand : Nat) (table : String) (number : Nat) (commit : Bool) :
    Handles hand s ((s.retire table number).unlock hand ⟨some number, commit⟩) := by
  refine ⟨fun other => ?_, (handles_unlock (s.retire table number) hand _).commit⟩
  rw [guardAt_congr (guards_unlock _ hand number commit), guardAt_setGuard, System.retire,
    guardAt_setGuard, guardAt_setGuard]
  have hsame : ({ s with known := s.known.filter fun entry => entry ≠ (table, number) } :
      System).guardAt = s.guardAt := rfl
  rw [hsame]
  by_cases hl : number < s.guards.length
  · by_cases he : number = other
    · subst he
      have hset : number < (System.setGuard
          { s with known := s.known.filter fun entry => entry ≠ (table, number) } number
          (s.guardAt number).close).guards.length := by
        simpa [System.setGuard] using hl
      rw [if_pos ⟨rfl, hset⟩, if_pos ⟨rfl, hl⟩]
      exact .shuts
    · rw [if_neg fun hc => he hc.1, if_neg fun hc => he hc.1]
      exact .rests
  · have hset : ¬ number < (System.setGuard
        { s with known := s.known.filter fun entry => entry ≠ (table, number) } number
        (s.guardAt number).close).guards.length := by
      simpa [System.setGuard] using hl
    rw [if_neg fun hc => hset hc.2, if_neg fun hc => hl hc.2]
    exact .rests

/-! ## Going on -/

/-- A call asks for the commit lock. -/
theorem turn_askCommit (hg : ∀ number, (s.guardAt number).Acts hand (t.guardAt number))
    (hc : t.commit = s.commit) (ho : s.commit.closed = false) (guard : Option Nat) :
    Turn hand s (t.askCommit hand guard) := by
  have hasked : Handles hand s { t with commit := (t.commit.request hand).1 } :=
    ⟨hg, by rw [hc]; exact .asks⟩
  have hline := Semaphore.line_request t.commit hand
  unfold System.askCommit
  simp only
  cases ha : (t.commit.request hand).2 with
  | granted => exact hasked.setStage trivial
  | failed => exact absurd ha (Semaphore.request_ne_failed (hc ▸ ho) hand)
  | waiting =>
    rw [ha] at hline
    refine hasked.setStage ?_
    simp only [Stands, hline]
    exact List.mem_append_right _ (List.mem_singleton_self hand)

/-- A statement has heard from a guard. -/
theorem turn_afterGuard (hg : ∀ number, (s.guardAt number).Acts hand (t.guardAt number))
    (hc : t.commit = s.commit) (ho : s.commit.closed = false) (statement : Statement)
    (number : Nat) {progress : Progress}
    (hw : progress.stays = true → hand ∈ (t.guardAt number).line) :
    Turn hand s (t.afterGuard hand statement number progress) := by
  have hstays : Handles hand s t := ⟨hg, by rw [hc]; exact .rests⟩
  cases progress with
  | failed => exact hstays.setStage trivial
  | waiting stage => exact hstays.setStage (hw rfl)
  | granted =>
    have hcommit := turn_askCommit hg hc ho (some number)
    cases statement with
    | select statement => exact hstays.setStage trivial
    | insert statement => exact hcommit
    | update statement => exact hcommit
    | delete statement => exact hcommit
    | create statement => exact hcommit
    | drop statement => exact hcommit

/-- A statement asks for a guard that is there. -/
theorem turn_askGuard (ho : s.commit.closed = false) (statement : Statement) {number : Nat}
    (hl : number < s.guards.length) : Turn hand s (s.askGuard hand statement number) := by
  have hasked := handles_setGuard
    (.asks (accessOf statement) : (s.guardAt number).Acts hand _)
  unfold System.askGuard
  simp only
  refine turn_afterGuard hasked.guards rfl ho statement number fun hw => ?_
  have hline := Guard.line_request (s.guardAt number) hand (accessOf statement)
  rw [hw, cond_true] at hline
  rw [guardAt_setGuard, if_pos ⟨rfl, hl⟩, hline]
  exact List.mem_append_right _ (List.mem_singleton_self hand)

/-- A statement begins. -/
theorem turn_beginStatement (ho : s.commit.closed = false)
    (hk : ∀ entry ∈ s.known, entry.2 < s.guards.length) (statement : Statement) :
    Turn hand s (s.beginStatement hand statement) := by
  have hrests : Handles hand s s := handles_of_guardAt_eq (fun _ => rfl) rfl
  unfold System.beginStatement
  split
  · split
    · exact hrests.setStage trivial
    · exact turn_askCommit hrests.guards rfl ho none
  · split
    next number hg => exact turn_askGuard ho _ (hk _ (mem_known_of_guardOf? hg))
    next => exact hrests.setStage trivial

/-- A call begins. -/
theorem turn_begin (ho : s.commit.closed = false)
    (hk : ∀ entry ∈ s.known, entry.2 < s.guards.length) (call : Call) :
    Turn s.calls.length s (s.begin call) := by
  let grown : System := { s with calls := s.calls ++ [⟨call, .loading ⟨none, false⟩ none⟩] }
  have hrests : Handles s.calls.length s grown := handles_of_guardAt_eq (fun _ => rfl) rfl
  have hplain : Turn s.calls.length s grown := by
    refine ⟨hrests, fun ha => ?_⟩
    simp only [grown, List.getElem?_concat_length, Option.some.injEq] at ha
    rw [← ha]
    trivial
  cases call with
  | tableNames => exact hplain
  | schema table => exact hplain
  | execute statement =>
    have hbegun : Turn s.calls.length grown _ := turn_beginStatement (s := grown) ho hk statement
    exact ⟨hbegun.toHandles.trans_of_eq (fun _ => rfl) rfl, hbegun.stands⟩

/-- A statement that has looked its table up goes on. -/
theorem turn_afterFinding (h : s.Seen hand none) (ho : s.commit.closed = false)
    (statement : Statement) (answer : Except StorageError Document) :
    Turn hand s (s.afterFinding hand statement answer) := by
  have hrests : Handles hand s s := handles_of_guardAt_eq (fun _ => rfl) rfl
  cases answer with
  | error e => exact hrests.setStage trivial
  | ok document =>
    unfold System.afterFinding
    simp only
    split
    · obtain ⟨number, hg⟩ := exists_guardOf?_register s statement.table
      have hl := ((h.register statement.table).opened (mem_known_of_guardOf? hg)).1
      have hopen : (s.register statement.table).commit.closed = false := by
        rw [commit_register]
        exact ho
      have hasked : Turn hand (s.register statement.table) _ := turn_askGuard hopen statement hl
      simp only [hg]
      exact ⟨hasked.toHandles.trans_of_eq (guardAt_register s _) (commit_register s _),
        hasked.stands⟩
    · exact hrests.setStage trivial

/-- A call returns and gives its locks back. -/
theorem turn_finish (s : System) (hand : Nat) (locks : Locks) (result : Except Error Reply) :
    Turn hand s (s.finish hand locks result) :=
  (handles_unlock s hand locks).setStage trivial

/-- A call that has read the document returns, or it is a statement that writes what it
makes of the document. -/
theorem afterLoading_cases (s : System) (hand : Nat) (call : Call) (locks : Locks)
    (answer : Except StorageError Document) :
    (∃ result, s.afterLoading hand call locks answer = s.finish hand locks result) ∨
      ∃ statement document effect changed, call = .execute statement ∧ answer = .ok document ∧
        statement.effect document = .ok effect ∧ effect.store = some changed ∧
        s.afterLoading hand call locks answer =
          s.setStage hand (.storing locks changed effect.rows none) := by
  cases answer with
  | error e => exact .inl ⟨_, rfl⟩
  | ok document =>
    cases call with
    | tableNames => exact .inl ⟨_, rfl⟩
    | schema table => exact .inl ⟨_, rfl⟩
    | execute statement =>
      simp only [System.afterLoading]
      split
      · exact .inl ⟨_, rfl⟩
      next effect he =>
        split
        · exact .inl ⟨_, rfl⟩
        next changed hc => exact .inr ⟨statement, document, effect, changed, rfl, rfl, he, hc, rfl⟩

/-- A call that has read the document goes on. -/
theorem turn_afterLoading (s : System) (hand : Nat) (call : Call) (locks : Locks)
    (answer : Except StorageError Document) :
    Turn hand s (s.afterLoading hand call locks answer) := by
  rcases afterLoading_cases s hand call locks answer with ⟨result, he⟩ |
    ⟨_, _, _, _, _, _, _, _, he⟩
  · rw [he]
    exact turn_finish s hand locks result
  · rw [he]
    exact (handles_of_guardAt_eq (fun _ => rfl) rfl).setStage trivial

/-- A call that has written the changed document goes on. -/
theorem turn_afterStoring (s : System) (hand : Nat) (call : Call) (locks : Locks)
    (rows : List Row) (answer : Except StorageError Unit) :
    Turn hand s (s.afterStoring hand call locks rows answer) := by
  cases answer with
  | error e => exact turn_finish s hand locks _
  | ok =>
    simp only [System.afterStoring]
    split
    next c =>
      have hleft := turn_finish (s.register c.table) hand locks (.ok (.rows rows))
      exact ⟨hleft.toHandles.trans_of_eq (guardAt_register s _) (commit_register s _),
        hleft.stands⟩
    next d =>
      obtain ⟨guard, commit⟩ := locks
      cases guard with
      | none => exact turn_finish s hand _ _
      | some number => exact (handles_retire s hand d.table number commit).setStage trivial
    next => exact turn_finish s hand locks _

/-- A call goes on. -/
theorem turn_resume (h : s.Orderly) (ho : s.commit.closed = false)
    (hw : ∀ {activity guard}, s.calls[hand]? = some activity → activity.stage = .committing guard →
      hand ∈ s.commit.line) (hm : s.resume hand = some t) : Turn hand s t := by
  unfold System.resume at hm
  obtain ⟨⟨call, stage⟩, ha, hm⟩ := Option.bind_eq_some_iff.mp hm
  have hseen := h.see hand
  rw [spotOf, ha] at hseen
  simp only at hm
  split at hm
  next statement answer =>
    cases hm
    exact turn_afterFinding hseen ho statement answer
  next statement guard =>
    obtain ⟨progress, hp, hm⟩ := Option.bind_eq_some_iff.mp hm
    cases hm
    have hl := (Seen.waits hseen).1
    have hpolled := handles_setGuard (.looks : (s.guardAt guard).Acts hand _)
    refine turn_afterGuard hpolled.guards rfl ho statement guard fun hs => ?_
    have hline := Guard.line_poll hp
    rw [hs, cond_true] at hline
    rw [guardAt_setGuard, if_pos ⟨rfl, hl⟩, hline]
    exact Guard.mem_line_of_poll hp
  next guard =>
    have hpolled : Handles hand s { s with commit := (s.commit.poll hand).1 } :=
      ⟨fun _ => .rests, .looks⟩
    have hline := Semaphore.line_poll ho hand
    split at hm
    next =>
      cases hm
      exact hpolled.setStage trivial
    next hg =>
      cases hm
      refine ⟨hpolled, fun ha' => ?_⟩
      rw [if_neg hg] at hline
      rw [ha] at ha'
      cases ha'
      simp only [Stands, hline]
      exact hw ha rfl
  next locks answer =>
    cases hm
    exact turn_afterLoading s hand _ locks answer
  next locks document rows answer =>
    cases hm
    exact turn_afterStoring s hand _ locks rows answer
  next => cases hm

/-! ## The store, and ending from outside -/

/-- A read does nothing at any lock. -/
theorem turn_readHappens {failure : Option StorageError}
    (hm : s.readHappens hand failure = some t) : Turn hand s t := by
  have hrests : Handles hand s s := handles_of_guardAt_eq (fun _ => rfl) rfl
  unfold System.readHappens at hm
  obtain ⟨⟨call, stage⟩, _, hm⟩ := Option.bind_eq_some_iff.mp hm
  simp only at hm
  split at hm
  next =>
    cases hm
    exact hrests.setStage trivial
  next =>
    cases hm
    exact hrests.setStage trivial
  next => cases hm

/-- A write does nothing at any lock. -/
theorem turn_writeHappens {failure : Option StorageError}
    (hm : s.writeHappens hand failure = some t) : Turn hand s t := by
  unfold System.writeHappens at hm
  obtain ⟨⟨call, stage⟩, _, hm⟩ := Option.bind_eq_some_iff.mp hm
  simp only at hm
  split at hm
  next locks document rows _ =>
    cases failure with
    | none =>
      cases hm
      have hstored : Handles hand s { s with stored := document } :=
        handles_of_guardAt_eq (fun _ => rfl) rfl
      exact hstored.setStage trivial
    | some e =>
      cases hm
      exact (handles_of_guardAt_eq (fun _ => rfl) rfl).setStage trivial
  next => cases hm

/-- A statement has waited too long for its guard. -/
theorem turn_expire (hm : s.expire hand = some t) : Turn hand s t := by
  unfold System.expire at hm
  obtain ⟨⟨call, stage⟩, _, hm⟩ := Option.bind_eq_some_iff.mp hm
  obtain ⟨timeout, _, hm⟩ := Option.bind_eq_some_iff.mp hm
  simp only at hm
  split at hm
  next =>
    cases hm
    exact (handles_setGuard .withdraws).setStage trivial
  next => cases hm

/-- A call is given up. -/
theorem turn_abort (hm : s.abort hand = some t) : Turn hand s t := by
  unfold System.abort at hm
  obtain ⟨⟨call, stage⟩, _, hm⟩ := Option.bind_eq_some_iff.mp hm
  simp only at hm
  cases stage with
  | finding answer =>
    cases hm
    exact (handles_of_guardAt_eq (fun _ => rfl) rfl).setStage trivial
  | queued guard =>
    cases hm
    exact (handles_setGuard .withdraws).setStage trivial
  | committing guard =>
    cases hm
    have hleft := handles_unlock { s with commit := s.commit.cancel hand } hand ⟨guard, false⟩
    have hcommit : s.commit.Acts hand (System.unlock { s with commit := s.commit.cancel hand } hand
        ⟨guard, false⟩).commit := by
      cases guard with
      | none => exact .withdraws
      | some number => exact .withdraws
    have hboth : Handles hand s _ := ⟨hleft.guards, hcommit⟩
    exact hboth.setStage trivial
  | loading locks answer =>
    cases hm
    exact (handles_unlock s hand locks).setStage trivial
  | storing locks document rows answer =>
    cases hm
    exact (handles_unlock s hand locks).setStage trivial
  | finished result => cases hm
  | aborted => cases hm

/-! ## Every system that is reached -/

/-- Those who wait stand in line. -/
structure Lined (s : System) : Prop where
  /-- The line at every open guard is that of its semaphores. -/
  guards : ∀ {number : Nat}, s.closedAt number = false → (s.guardAt number).Lined
  /-- The commit lock gives its permit away. -/
  commit : s.commit.Prompt
  /-- Every call that waits stands in line at the lock. -/
  stands : ∀ {number : Nat} {activity : Activity}, s.calls[number]? = some activity →
    s.Stands number activity.stage

/-- When a handle is opened nobody stands in line. -/
theorem lined_ofDocument (config : Config) (document : Document) (known : List String) :
    (ofDocument config document known).Lined where
  guards _ := guardAt_ofDocument config document known _ ▸ Guard.lined_new
  commit _ := rfl
  stands ha := by cases ha

/-- A move is a turn of the call that it concerns. -/
theorem Lined.turn (h : s.Lined) (ho : s.Orderly) (hc : s.Conserves) {move : Move}
    (hm : s.move move = some t) : Turn (move.caller s) s t := by
  have hopen := hc.commit.isOpen
  cases move with
  | begin call =>
    cases hm
    exact turn_begin hopen (fun entry he => (ho.opened he).1) call
  | read number failure => exact turn_readHappens hm
  | write number failure => exact turn_writeHappens hm
  | resume number =>
    refine turn_resume ho hopen (fun {activity guard} ha hs => ?_) hm
    have hstands := h.stands ha
    rw [hs] at hstands
    exact hstands
  | expire number => exact turn_expire hm
  | abort number => exact turn_abort hm

/-- What stands in line goes on standing there, whatever another call does. -/
theorem Turn.stands_of_ne (ht : Turn hand s t) (ho : s.commit.closed = false) {number : Nat}
    (hne : number ≠ hand) {stage : Stage} (h : s.Stands number stage) : t.Stands number stage := by
  cases stage with
  | queued guard => exact ((ht.guards guard).mem_line_iff hne).mpr h
  | committing guard => exact (ht.commit.mem_line_iff ho hne).mpr h
  | _ => trivial

/-- No move opens a guard that is closed. -/
theorem Turn.closedAt (ht : Turn hand s t) (ho : s.Orderly) {number : Nat}
    (hc : s.closedAt number = true) : t.closedAt number = true := by
  have hcloses := ho.closes number
  rw [hc] at hcloses
  exact ((ht.guards number).closes hcloses).entry

/-- After a move those who wait stand in line. -/
theorem Lined.move (h : s.Lined) (ho : s.Orderly) (hc : s.Conserves) {move : Move}
    (hm : s.move move = some t) : t.Lined := by
  have ht := h.turn ho hc hm
  refine ⟨fun {number} hopen => ?_, ht.commit.prompt h.commit, fun {number activity} ha => ?_⟩
  · have hbefore : s.closedAt number = false := by
      rw [Bool.eq_false_iff]
      intro hclosed
      rw [ht.closedAt ho hclosed] at hopen
      cases hopen
    have hcloses := ho.closes number
    rw [hbefore] at hcloses
    exact (ht.guards number).lined (h.guards hbefore) (hc.guards number) hcloses hopen
  · by_cases hne : number = move.caller s
    · subst hne
      exact ht.stands ha
    · rw [others_move hm hne] at ha
      exact ht.stands_of_ne hc.commit.isOpen hne (h.stands ha)

/-- In a system that is reached those who wait stand in line, in the order in which they came.
-/
theorem Reached.lined {config : Config} (h : Reached config s) : s.Lined := by
  induction h with
  | opened document _ => exact lined_ofDocument config document _
  | move hr hm ih => exact ih.move hr.orderly hr.conserves hm
  | @stored s _ document ih =>
    refine ⟨ih.guards, ih.commit, fun {number activity} ha => ?_⟩
    have hstands := ih.stands ha
    cases hs : activity.stage with
    | queued guard => rwa [hs] at hstands
    | committing guard => rwa [hs] at hstands
    | _ => trivial

/-- In a system that is reached a move is a turn of the call that it concerns. -/
theorem Reached.turn {config : Config} (h : Reached config s) {move : Move}
    (hm : s.move move = some t) : Turn (move.caller s) s t :=
  h.lined.turn h.orderly h.conserves hm

end EmbeddedSql.Session.System
