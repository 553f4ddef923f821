import EmbeddedSql.Proofs.Session.Moves

/-!
# The course of a call

A move concerns one call. All other calls stay where they are, and unless it is
a write that takes place the stored document stays as it is. A call that has
ended is never moved again, and a call whose write has taken place can only
return its rows or be given up.
-/

namespace EmbeddedSql.Session

open Sql Lock

/-- The call has returned or was given up. -/
inductive Stage.Ended : Stage → Prop where
  /-- It has returned. -/
  | finished (result : Except Error Reply) : Ended (.finished result)
  /-- It was given up. -/
  | aborted : Ended .aborted

/-- Where a call can stand once its write has taken place. -/
inductive Stage.BehindWrite : Stage → Prop where
  /-- The write has ended. -/
  | storing (locks : Locks) (document : Document) (rows : List Row) :
    BehindWrite (.storing locks document rows (some (.ok ())))
  /-- The call has returned without an error. -/
  | finished (reply : Reply) : BehindWrite (.finished (.ok reply))
  /-- The call was given up. -/
  | aborted : BehindWrite .aborted

/-- The number of the call that a move concerns. -/
def Move.caller (s : System) : Move → Nat
  | .begin _ => s.calls.length
  | .read number _ => number
  | .write number _ => number
  | .resume number => number
  | .expire number => number
  | .abort number => number

namespace System

variable {s t u : System} {hand : Nat}

/-! ## Changes that concern one call -/

/-- A change concerns one call: the stored document, what the calls are and where
the other calls stand stays as it is. -/
structure Concerns (hand : Nat) (s t : System) : Prop where
  /-- Nothing is stored. -/
  stored : t.stored = s.stored
  /-- The calls are what they were. -/
  same : ∀ number : Nat, (t.calls[number]?).map (·.call) = (s.calls[number]?).map (·.call)
  /-- Other calls stand where they stood. -/
  others : ∀ {number : Nat}, number ≠ hand → t.calls[number]? = s.calls[number]?

/-- Two changes that concern one call are one change that concerns it. -/
theorem Concerns.trans (h : Concerns hand s t) (hu : Concerns hand t u) : Concerns hand s u where
  stored := hu.stored.trans h.stored
  same number := (hu.same number).trans (h.same number)
  others hne := (hu.others hne).trans (h.others hne)

/-- A change of the locks and the known tables concerns no call. -/
theorem concerns_of_calls (hs : t.stored = s.stored) (hc : t.calls = s.calls) :
    Concerns hand s t where
  stored := hs
  same number := by rw [hc]
  others _ := by rw [hc]

/-- Putting a call at another stage concerns that call. -/
theorem concerns_setStage (s : System) (hand : Nat) (stage : Stage) :
    Concerns hand s (s.setStage hand stage) where
  stored := rfl
  same number := map_call_setStage s hand number stage
  others hne := getElem?_setStage_of_ne hne stage

/-- Changing a guard leaves the document and all calls as they are. -/
theorem concerns_setGuard (s : System) (number : Nat) (guard : Guard Nat) :
    Concerns hand s (s.setGuard number guard) :=
  concerns_of_calls rfl rfl

/-- Giving a table a guard leaves the document and all calls as they are. -/
theorem concerns_register (s : System) (table : String) : Concerns hand s (s.register table) := by
  unfold System.register
  split
  · exact concerns_of_calls rfl rfl
  · exact concerns_of_calls rfl rfl

/-- Closing a guard that is no longer known leaves the document and all calls as they are. -/
theorem concerns_retire (s : System) (table : String) (number : Nat) :
    Concerns hand s (s.retire table number) :=
  concerns_of_calls rfl rfl

/-- Giving locks back leaves the document and all calls as they are. -/
theorem concerns_unlock (s : System) (hand : Nat) (locks : Locks) :
    Concerns hand s (s.unlock hand locks) := by
  obtain ⟨guard, commit⟩ := locks
  have hreleased : Concerns hand s
      (if commit then { s with commit := s.commit.release } else s) := by
    cases commit with
    | false => exact concerns_of_calls rfl rfl
    | true => exact concerns_of_calls rfl rfl
  cases guard with
  | none => exact hreleased
  | some number => exact hreleased.trans (concerns_setGuard _ number _)

/-- Returning concerns the call that returns. -/
theorem concerns_finish (s : System) (hand : Nat) (locks : Locks)
    (result : Except Error Reply) : Concerns hand s (s.finish hand locks result) :=
  (concerns_unlock s hand locks).trans (concerns_setStage _ hand _)

/-- Asking for the commit lock concerns the call that asks. -/
theorem concerns_askCommit (s : System) (hand : Nat) (guard : Option Nat) :
    Concerns hand s (s.askCommit hand guard) := by
  have hasked : Concerns hand s { s with commit := (s.commit.request hand).1 } :=
    concerns_of_calls rfl rfl
  unfold System.askCommit
  simp only
  split
  · exact hasked.trans (concerns_setStage _ hand _)
  · exact hasked.trans (concerns_setStage _ hand _)

/-- Getting access concerns the statement that gets it. -/
theorem concerns_enter (s : System) (hand : Nat) (statement : Statement) (number : Nat) :
    Concerns hand s (s.enter hand statement number) := by
  cases statement with
  | select statement => exact concerns_setStage s hand _
  | insert statement => exact concerns_askCommit s hand _
  | update statement => exact concerns_askCommit s hand _
  | delete statement => exact concerns_askCommit s hand _
  | create statement => exact concerns_askCommit s hand _
  | drop statement => exact concerns_askCommit s hand _

/-- What a request for a guard comes to concerns the statement that made it. -/
theorem concerns_afterGuard (s : System) (hand : Nat) (statement : Statement) (number : Nat)
    (progress : Progress) : Concerns hand s (s.afterGuard hand statement number progress) := by
  cases progress with
  | granted => exact concerns_enter s hand statement number
  | failed => exact concerns_setStage s hand _
  | waiting stage => exact concerns_setStage s hand _

/-- Asking for a guard concerns the statement that asks. -/
theorem concerns_askGuard (s : System) (hand : Nat) (statement : Statement) (number : Nat) :
    Concerns hand s (s.askGuard hand statement number) :=
  (concerns_setGuard s number _).trans (concerns_afterGuard _ hand statement number _)

/-- Beginning concerns the statement that begins. -/
theorem concerns_beginStatement (s : System) (hand : Nat) (statement : Statement) :
    Concerns hand s (s.beginStatement hand statement) := by
  unfold beginStatement
  split
  · split
    · exact concerns_setStage s hand _
    · exact concerns_askCommit s hand _
  · split
    · exact concerns_askGuard s hand _ _
    · exact concerns_setStage s hand _

/-- What a lookup finds concerns the statement that looked its table up. -/
theorem concerns_afterFinding (s : System) (hand : Nat) (statement : Statement)
    (answer : Except StorageError Document) :
    Concerns hand s (s.afterFinding hand statement answer) := by
  cases answer with
  | error e => exact concerns_setStage s hand _
  | ok document =>
    have hregistered := @concerns_register hand s statement.table
    rw [System.afterFinding]
    split
    · simp only
      split
      · exact hregistered.trans (concerns_askGuard _ hand statement _)
      · exact hregistered
    · exact concerns_setStage s hand _

/-- What a call does with the document concerns that call; it has not been stored yet. -/
theorem concerns_afterLoading (s : System) (hand : Nat) (call : Call) (locks : Locks)
    (answer : Except StorageError Document) :
    Concerns hand s (s.afterLoading hand call locks answer) := by
  cases answer with
  | error e => exact concerns_finish s hand locks _
  | ok document =>
    cases call with
    | tableNames => exact concerns_finish s hand locks _
    | schema table => exact concerns_finish s hand locks _
    | execute statement =>
      rw [System.afterLoading]
      split
      · exact concerns_finish s hand locks _
      · split
        · exact concerns_finish s hand locks _
        · exact concerns_setStage s hand _

/-- A statement that has written the changed document closes or opens a guard, if
need be, and returns. -/
theorem afterStoring_ok (s : System) (hand : Nat) (call : Call) (locks : Locks)
    (rows : List Row) : ∃ settled, Concerns hand s settled ∧
      s.afterStoring hand call locks rows (.ok ()) =
        settled.finish hand locks (.ok (.rows rows)) := by
  refine ⟨_, ?_, rfl⟩
  split
  · exact concerns_register s _
  · split
    · exact concerns_retire s _ _
    · exact concerns_of_calls rfl rfl
  · exact concerns_of_calls rfl rfl

/-- What a call does after its write concerns that call. -/
theorem concerns_afterStoring (s : System) (hand : Nat) (call : Call) (locks : Locks)
    (rows : List Row) (answer : Except StorageError Unit) :
    Concerns hand s (s.afterStoring hand call locks rows answer) := by
  cases answer with
  | error e => exact concerns_finish s hand locks _
  | ok =>
    obtain ⟨settled, hsettled, he⟩ := afterStoring_ok s hand call locks rows
    rw [he]
    exact hsettled.trans (concerns_finish settled hand locks _)

/-! ## Moves -/

/-- Going on concerns the call that goes on. -/
theorem concerns_resume (hm : s.resume hand = some t) : Concerns hand s t := by
  unfold System.resume at hm
  obtain ⟨⟨call, stage⟩, _, hm⟩ := Option.bind_eq_some_iff.mp hm
  simp only at hm
  split at hm
  next =>
    cases hm
    exact concerns_afterFinding s hand _ _
  next =>
    obtain ⟨progress, _, hm⟩ := Option.bind_eq_some_iff.mp hm
    cases hm
    exact (concerns_setGuard s _ _).trans (concerns_afterGuard _ hand _ _ progress)
  next =>
    have hpolled : Concerns hand s { s with commit := (s.commit.poll hand).1 } :=
      concerns_of_calls rfl rfl
    split at hm
    · cases hm
      exact hpolled.trans (concerns_setStage _ hand _)
    · cases hm
      exact hpolled
  next =>
    cases hm
    exact concerns_afterLoading s hand _ _ _
  next =>
    cases hm
    exact concerns_afterStoring s hand _ _ _ _
  next => cases hm

/-- A read concerns the call that reads. -/
theorem concerns_readHappens {failure : Option StorageError}
    (hm : s.readHappens hand failure = some t) : Concerns hand s t := by
  unfold System.readHappens at hm
  obtain ⟨⟨call, stage⟩, _, hm⟩ := Option.bind_eq_some_iff.mp hm
  simp only at hm
  split at hm
  next =>
    cases hm
    exact concerns_setStage s hand _
  next =>
    cases hm
    exact concerns_setStage s hand _
  next => cases hm

/-- The end of a wait concerns the statement that has waited. -/
theorem concerns_expire (hm : s.expire hand = some t) : Concerns hand s t := by
  unfold System.expire at hm
  obtain ⟨⟨call, stage⟩, _, hm⟩ := Option.bind_eq_some_iff.mp hm
  obtain ⟨timeout, _, hm⟩ := Option.bind_eq_some_iff.mp hm
  simp only at hm
  split at hm
  next =>
    cases hm
    exact (concerns_setGuard s _ _).trans (concerns_setStage _ hand _)
  next => cases hm

/-- A call that is given up leaves its place in the locks first. -/
theorem exists_of_abort (hm : s.abort hand = some t) :
    ∃ left, Concerns hand s left ∧ t = left.setStage hand .aborted := by
  unfold System.abort at hm
  obtain ⟨⟨call, stage⟩, _, hm⟩ := Option.bind_eq_some_iff.mp hm
  simp only at hm
  cases stage with
  | finding answer =>
    cases hm
    exact ⟨s, concerns_of_calls rfl rfl, rfl⟩
  | queued guard =>
    cases hm
    exact ⟨_, concerns_setGuard s guard _, rfl⟩
  | committing guard =>
    cases hm
    have hcancelled : Concerns hand s { s with commit := s.commit.cancel hand } :=
      concerns_of_calls rfl rfl
    exact ⟨_, hcancelled.trans (concerns_unlock _ hand _), rfl⟩
  | loading locks answer =>
    cases hm
    exact ⟨_, concerns_unlock s hand locks, rfl⟩
  | storing locks document rows answer =>
    cases hm
    exact ⟨_, concerns_unlock s hand locks, rfl⟩
  | finished result => cases hm
  | aborted => cases hm

/-- A call whose write takes place has begun to write. The write stores the
document or fails. -/
theorem exists_of_writeHappens {failure : Option StorageError}
    (hm : s.writeHappens hand failure = some t) : ∃ call locks document rows,
      s.calls[hand]? = some ⟨call, .storing locks document rows none⟩ ∧
      ((failure = none ∧ t = { s with stored := document }.setStage hand
          (.storing locks document rows (some (.ok ())))) ∨
        failure ≠ none ∧ Concerns hand s t) := by
  unfold System.writeHappens at hm
  obtain ⟨⟨call, stage⟩, ha, hm⟩ := Option.bind_eq_some_iff.mp hm
  simp only at hm
  split at hm
  next locks document rows =>
    refine ⟨call, locks, document, rows, ha, ?_⟩
    cases failure with
    | none =>
      cases hm
      exact .inl ⟨rfl, rfl⟩
    | some e =>
      cases hm
      exact .inr ⟨fun he => (nomatch he), concerns_setStage s hand _⟩
  next => cases hm

/-- A move leaves all calls but one where they stand. -/
theorem others_move {move : Move} (hm : s.move move = some t) {number : Nat}
    (hne : number ≠ move.caller s) : t.calls[number]? = s.calls[number]? := by
  cases move with
  | begin call =>
    cases hm
    have hgrown := getElem?_grow hne ⟨call, .loading ⟨none, false⟩ none⟩
    cases call with
    | tableNames => exact hgrown
    | schema table => exact hgrown
    | execute statement =>
      exact ((concerns_beginStatement _ s.calls.length statement).others hne).trans hgrown
  | read hand failure => exact (concerns_readHappens hm).others hne
  | write hand failure =>
    obtain ⟨call, locks, document, rows, _, hcases⟩ := exists_of_writeHappens hm
    rcases hcases with ⟨_, rfl⟩ | hfailed
    · exact getElem?_setStage_of_ne hne _
    · exact hfailed.2.others hne
  | resume hand => exact (concerns_resume hm).others hne
  | expire hand => exact (concerns_expire hm).others hne
  | abort hand =>
    obtain ⟨left, hleft, rfl⟩ := exists_of_abort hm
    exact (hleft.trans (concerns_setStage left hand .aborted)).others hne

/-- Only a write that takes place stores anything. -/
theorem stored_move {move : Move} (hm : s.move move = some t)
    (hw : ∀ number, move ≠ .write number none) : t.stored = s.stored := by
  cases move with
  | begin call =>
    cases hm
    cases call with
    | tableNames => rfl
    | schema table => rfl
    | execute statement => exact (concerns_beginStatement _ s.calls.length statement).stored
  | read hand failure => exact (concerns_readHappens hm).stored
  | write hand failure =>
    obtain ⟨call, locks, document, rows, _, hcases⟩ := exists_of_writeHappens hm
    rcases hcases with ⟨rfl, _⟩ | hfailed
    · exact absurd rfl (hw hand)
    · exact hfailed.2.stored
  | resume hand => exact (concerns_resume hm).stored
  | expire hand => exact (concerns_expire hm).stored
  | abort hand =>
    obtain ⟨left, hleft, rfl⟩ := exists_of_abort hm
    exact hleft.stored

/-! ## Calls that have ended -/

/-- No move concerns a call that has ended. -/
theorem ne_caller_of_ended {move : Move} (hm : s.move move = some t) {number : Nat} {call : Call}
    {stage : Stage} (ha : s.calls[number]? = some ⟨call, stage⟩) (he : stage.Ended) :
    number ≠ move.caller s := by
  intro hne
  cases move with
  | begin other =>
    have hl := (List.getElem?_eq_some_iff.mp ha).1
    rw [hne] at hl
    exact Nat.lt_irrefl _ hl
  | read hand failure =>
    obtain rfl : number = hand := hne
    cases he with
    | finished result => simp [System.move, System.readHappens, ha] at hm
    | aborted => simp [System.move, System.readHappens, ha] at hm
  | write hand failure =>
    obtain rfl : number = hand := hne
    obtain ⟨_, locks, document, rows, hwrite, _⟩ := exists_of_writeHappens hm
    rw [hwrite] at ha
    cases ha
    cases he
  | resume hand =>
    obtain rfl : number = hand := hne
    cases he with
    | finished result => simp [System.move, System.resume, ha] at hm
    | aborted => simp [System.move, System.resume, ha] at hm
  | expire hand =>
    obtain rfl : number = hand := hne
    cases he with
    | finished result => simp [System.move, System.expire, ha] at hm
    | aborted => simp [System.move, System.expire, ha] at hm
  | abort hand =>
    obtain rfl : number = hand := hne
    cases he with
    | finished result => simp [System.move, System.abort, ha] at hm
    | aborted => simp [System.move, System.abort, ha] at hm

/-- A call that has ended stays as it is, and its write does not take place
any more. -/
theorem run_of_ended {moves : List Move} (hr : s.run moves = some t) {number : Nat} {call : Call}
    {stage : Stage} (ha : s.calls[number]? = some ⟨call, stage⟩) (he : stage.Ended) :
    t.calls[number]? = some ⟨call, stage⟩ ∧ .write number none ∉ moves := by
  induction moves generalizing s with
  | nil =>
    cases hr
    exact ⟨ha, List.not_mem_nil⟩
  | cons move rest ih =>
    obtain ⟨u, hm, hrest⟩ := Option.bind_eq_some_iff.mp hr
    have hne := ne_caller_of_ended hm ha he
    have hlater := ih hrest ((others_move hm hne).trans ha)
    refine ⟨hlater.1, fun hw => ?_⟩
    rcases List.mem_cons.mp hw with rfl | hw
    · exact hne rfl
    · exact hlater.2 hw

/-! ## Calls whose write has taken place -/

/-- A call that returns is there afterwards with its result. -/
theorem getElem?_finish {number : Nat} {call : Call}
    (h : (s.calls[number]?).map (·.call) = some call) (locks : Locks)
    (result : Except Error Reply) :
    (s.finish number locks result).calls[number]? = some ⟨call, .finished result⟩ := by
  have hsame := (concerns_unlock s number locks).same number
  exact getElem?_setStage_self (hsame.trans h) _

/-- A write that takes place leaves its call behind the write. -/
theorem behindWrite_of_write {number : Nat} (hm : s.move (.write number none) = some t) :
    ∃ call stage, t.calls[number]? = some ⟨call, stage⟩ ∧ stage.BehindWrite := by
  have hm' : s.writeHappens number none = some t := hm
  obtain ⟨call, locks, document, rows, ha, hcases⟩ := exists_of_writeHappens hm'
  rcases hcases with ⟨_, rfl⟩ | hfailed
  · have hp : (({ s with stored := document } : System).calls[number]?).map (·.call) =
        some call := congrArg (Option.map (·.call)) ha
    exact ⟨call, _, getElem?_setStage_self hp _, .storing locks document rows⟩
  · exact absurd rfl hfailed.1

/-- A call whose write has ended well can only return or be given up. -/
theorem behindWrite_of_stored {move : Move} (hm : s.move move = some t) {number : Nat}
    {call : Call} {locks : Locks} {document : Document} {rows : List Row}
    (ha : s.calls[number]? = some ⟨call, .storing locks document rows (some (.ok ()))⟩)
    (hc : number = move.caller s) :
    ∃ stage, t.calls[number]? = some ⟨call, stage⟩ ∧ stage.BehindWrite := by
  have hp : (s.calls[number]?).map (·.call) = some call := congrArg (Option.map (·.call)) ha
  cases move with
  | begin other =>
    have hl := (List.getElem?_eq_some_iff.mp ha).1
    rw [hc] at hl
    exact absurd hl (Nat.lt_irrefl _)
  | read hand failure =>
    obtain rfl : number = hand := hc
    -- The call has read already.
    have hnone : s.readHappens number failure = none := by
      simp [System.readHappens, ha]
    rw [System.move, hnone] at hm
    cases hm
  | write hand failure =>
    obtain rfl : number = hand := hc
    -- Its write has taken place already.
    obtain ⟨_, _, _, _, hwrite, _⟩ := exists_of_writeHappens hm
    rw [hwrite] at ha
    cases ha
  | resume hand =>
    obtain rfl : number = hand := hc
    have hresume : s.resume number = some (s.afterStoring number call locks rows (.ok ())) := by
      simp [System.resume, ha]
    rw [System.move, hresume] at hm
    cases hm
    obtain ⟨settled, hsettled, he⟩ := afterStoring_ok s number call locks rows
    have hthere := (hsettled.same number).trans hp
    rw [he]
    exact ⟨_, getElem?_finish hthere locks _, .finished _⟩
  | expire hand =>
    obtain rfl : number = hand := hc
    -- It is past its guard.
    have hnone : s.expire number = none := by
      simp [System.expire, ha]
    rw [System.move, hnone] at hm
    cases hm
  | abort hand =>
    obtain rfl : number = hand := hc
    obtain ⟨left, hleft, rfl⟩ := exists_of_abort hm
    have hthere := (hleft.same number).trans hp
    exact ⟨_, getElem?_setStage_self hthere _, .aborted⟩

/-- A call stays behind its write. -/
theorem behindWrite_move {move : Move} (hm : s.move move = some t) {number : Nat} {call : Call}
    {stage : Stage} (ha : s.calls[number]? = some ⟨call, stage⟩) (hb : stage.BehindWrite) :
    ∃ stage', t.calls[number]? = some ⟨call, stage'⟩ ∧ stage'.BehindWrite := by
  by_cases hc : number = move.caller s
  · cases hb with
    | storing locks document rows => exact behindWrite_of_stored hm ha hc
    | finished reply => exact absurd hc (ne_caller_of_ended hm ha (.finished _))
    | aborted => exact absurd hc (ne_caller_of_ended hm ha .aborted)
  · exact ⟨stage, (others_move hm hc).trans ha, hb⟩

/-- A call stays behind its write in a whole run. -/
theorem behindWrite_run {moves : List Move} (hr : s.run moves = some t) {number : Nat}
    {call : Call} {stage : Stage} (ha : s.calls[number]? = some ⟨call, stage⟩)
    (hb : stage.BehindWrite) :
    ∃ stage', t.calls[number]? = some ⟨call, stage'⟩ ∧ stage'.BehindWrite := by
  induction moves generalizing s stage with
  | nil =>
    cases hr
    exact ⟨stage, ha, hb⟩
  | cons move rest ih =>
    obtain ⟨u, hm, hrest⟩ := Option.bind_eq_some_iff.mp hr
    obtain ⟨stage', ha', hb'⟩ := behindWrite_move hm ha hb
    exact ih hrest ha' hb'

/-- A call whose write has taken place in a run is behind its write. -/
theorem behindWrite_of_mem {moves : List Move} (hr : s.run moves = some t) {number : Nat}
    (hw : .write number none ∈ moves) :
    ∃ call stage, t.calls[number]? = some ⟨call, stage⟩ ∧ stage.BehindWrite := by
  induction moves generalizing s with
  | nil => cases hw
  | cons move rest ih =>
    obtain ⟨u, hm, hrest⟩ := Option.bind_eq_some_iff.mp hr
    rcases List.mem_cons.mp hw with rfl | hw
    · obtain ⟨call, stage, ha, hb⟩ := behindWrite_of_write hm
      obtain ⟨stage', ha', hb'⟩ := behindWrite_run hrest ha hb
      exact ⟨call, stage', ha', hb'⟩
    · exact ih hrest hw

end System

end EmbeddedSql.Session
