import EmbeddedSql.Proofs.Session.Linearizability
import EmbeddedSql.Proofs.Session.Permits

/-!
# Calls made one at a time

In a system in which every call has ended, all locks are free. A call that begins
there and is the only one to move, with a store that answers, has one way to go: it
returns what it comes to when it is made alone, and leaves a system in which every
call has ended again. So calls that are made one at a time give back what a handle
gives back that runs them one after another, whatever had happened before on the same
document.
-/

namespace EmbeddedSql.Session

open Sql Lock

/-- A call goes on by itself, or the store answers it. -/
inductive Move.Drives (number : Nat) : Move → Prop where
  /-- Its read takes place. -/
  | read : Drives number (.read number none)
  /-- Its write takes place. -/
  | write : Drives number (.write number none)
  /-- It goes on. -/
  | resume : Drives number (.resume number)

/-- The move by which a call goes on from a stage. -/
def Stage.drive (number : Nat) : Stage → Move
  | .finding none => .read number none
  | .loading _ none => .read number none
  | .storing _ _ _ none => .write number none
  | _ => .resume number

namespace System

variable {s t u : System} {number : Nat} {call : Call} {document : Document}

/-! ## One way to go -/

/-- From where a call stands it can go on by one move only. -/
theorem exists_of_drives {move : Move} (hd : move.Drives number) (hm : s.move move = some t) :
    ∃ activity, s.calls[number]? = some activity ∧ move = activity.stage.drive number := by
  cases hd with
  | read =>
    have hm : s.readHappens number none = some t := hm
    obtain ⟨⟨call, stage⟩, ha, hm⟩ := Option.bind_eq_some_iff.mp hm
    refine ⟨_, ha, ?_⟩
    simp only at hm
    split at hm
    next => rfl
    next => rfl
    next => cases hm
  | write =>
    have hm : s.writeHappens number none = some t := hm
    obtain ⟨call, locks, document, rows, ha, _⟩ := exists_of_writeHappens hm
    exact ⟨_, ha, rfl⟩
  | resume =>
    have hm : s.resume number = some t := hm
    obtain ⟨⟨call, stage⟩, ha, hm⟩ := Option.bind_eq_some_iff.mp hm
    refine ⟨_, ha, ?_⟩
    simp only at hm
    split at hm
    next => rfl
    next => rfl
    next => rfl
    next => rfl
    next => rfl
    next => cases hm

/-- Of the moves by which a call goes on with a store that answers at most one can be made. -/
theorem eq_of_drives {move other : Move} (hd : move.Drives number) (ho : other.Drives number)
    (hm : s.move move = some t) (hm' : s.move other = some u) : move = other := by
  obtain ⟨activity, ha, he⟩ := exists_of_drives hd hm
  obtain ⟨activity', ha', he'⟩ := exists_of_drives ho hm'
  obtain rfl : activity = activity' := Option.some.inj (ha.symm.trans ha')
  rw [he, he']

/-- No move drives a call that has ended. -/
theorem not_ended_of_drives {move : Move} (hd : move.Drives number)
    (hm : s.move move = some t) : ¬ s.HasEnded number := by
  rintro ⟨call, stage, ha, he⟩
  refine ne_caller_of_ended hm ha he ?_
  cases hd with
  | read => rfl
  | write => rfl
  | resume => rfl

/-- Two ways to the end of a call that is the only one to move lead to the same
system. -/
theorem run_eq_of_drives {moves others : List Move} (hd : ∀ move ∈ moves, move.Drives number)
    (ho : ∀ move ∈ others, move.Drives number) (hr : s.run moves = some t)
    (hr' : s.run others = some u) (he : t.HasEnded number) (he' : u.HasEnded number) : t = u := by
  induction moves generalizing s others with
  | nil =>
    obtain rfl : s = t := Option.some.inj hr
    cases others with
    | nil => exact Option.some.inj hr'
    | cons move rest =>
      obtain ⟨_, hm, _⟩ := Option.bind_eq_some_iff.mp hr'
      exact absurd he (not_ended_of_drives (ho move List.mem_cons_self) hm)
  | cons move rest ih =>
    obtain ⟨next, hm, hrest⟩ := Option.bind_eq_some_iff.mp hr
    cases others with
    | nil =>
      obtain rfl : s = u := Option.some.inj hr'
      exact absurd he' (not_ended_of_drives (hd move List.mem_cons_self) hm)
    | cons other rest' =>
      obtain ⟨next', hm', hrest'⟩ := Option.bind_eq_some_iff.mp hr'
      have hsame := eq_of_drives (hd move List.mem_cons_self) (ho other List.mem_cons_self) hm hm'
      rw [hsame] at hm
      obtain rfl : next = next' := Option.some.inj (hm.symm.trans hm')
      exact ih (fun m h => hd m (List.mem_cons_of_mem _ h))
        (fun m h => ho m (List.mem_cons_of_mem _ h)) hrest hrest'

/-! ## Systems at rest -/

/-- Every call has ended. -/
def Quiet (s : System) : Prop :=
  ∀ activity ∈ s.calls, activity.stage.Ended

/-- Nobody stands at a lock that can be asked for. -/
structure Free (s : System) : Prop where
  /-- The guards of the known tables are new. -/
  guards : ∀ entry ∈ s.known, s.guardAt entry.2 = Guard.new
  /-- The commit lock has its permit. -/
  commit : s.commit = .ofPermits 1

/-- A call that has ended stands nowhere. -/
theorem spotOf_of_ended (h : ∀ activity, s.calls[number]? = some activity → activity.stage.Ended) :
    s.spotOf number = none ∧ s.deskOf number = none := by
  rw [spotOf, deskOf]
  cases ha : s.calls[number]? with
  | none => exact ⟨rfl, rfl⟩
  | some activity =>
    obtain ⟨call, stage⟩ := activity
    cases h _ ha with
    | finished result => exact ⟨rfl, rfl⟩
    | aborted => exact ⟨rfl, rfl⟩

/-- When every call has ended, all locks are free. -/
theorem Reached.free {config : Config} (h : Reached config s) (hq : s.Quiet) : s.Free := by
  have hgone (number : Nat) : s.spotOf number = none ∧ s.deskOf number = none :=
    spotOf_of_ended fun activity ha => hq activity (List.mem_of_getElem? ha)
  have horderly := h.orderly
  constructor
  · intro entry he
    have hcloses := horderly.closes entry.2
    rw [(horderly.opened he).2] at hcloses
    refine (h.conserves.guards entry.2).eq_new hcloses ?_ ?_
    · refine List.eq_nil_iff_forall_not_mem.mpr fun r hr => ?_
      obtain ⟨statement, hs, _⟩ := horderly.waiting hr
      rw [(hgone r.client).1] at hs
      cases hs
    · refine List.eq_nil_iff_forall_not_mem.mpr fun hold hm => ?_
      obtain ⟨statement, hs, _⟩ := horderly.holding hm
      rw [(hgone hold.client).1] at hs
      cases hs
  · obtain ⟨list, hattends, hwaits⟩ := h.conserves.commit.attends
    have hnobody : list = [] := List.eq_nil_iff_forall_not_mem.mpr fun number hm => by
      have hw := hwaits number hm
      rw [(hgone number).2] at hw
      cases hw
    have hspare : s.commit.spare = 1 := h.conserves.commit.free fun number hh => by
      rw [(hgone number).2] at hh
      cases hh
    rw [hnobody] at hattends
    rw [hattends.eq_ofPermits h.conserves.commit.isOpen, hspare]

/-! ## To the end -/

/-- A call can go on by itself, with a store that answers, until it has returned what
it comes to on a document and left there what it leaves. -/
def Returns (s : System) (number : Nat) (call : Call) (document : Document) : Prop :=
  ∃ moves t, (∀ move ∈ moves, move.Drives number) ∧ s.run moves = some t ∧
    t.calls[number]? = some ⟨call, .finished (call.outcome document).2⟩ ∧
    t.stored = (call.outcome document).1

/-- If a call returns from where it gets by one of its moves, it returns. -/
theorem Returns.step {move : Move} (h : u.Returns number call document)
    (hd : move.Drives number) (hm : s.move move = some u) : s.Returns number call document := by
  obtain ⟨moves, t, hmoves, hr, hlast⟩ := h
  refine ⟨move :: moves, t, List.forall_mem_cons.mpr ⟨hd, hmoves⟩, ?_, hlast⟩
  rw [run, hm]
  exact hr

/-- A call that returns what it comes to has nothing left to do. -/
theorem returns_setStage (hp : (s.calls[number]?).map (·.call) = some call)
    {result : Except Error Reply} (ho : call.outcome document = (s.stored, result)) :
    (s.setStage number (.finished result)).Returns number call document := by
  refine ⟨[], _, nofun, rfl, ?_, ?_⟩
  · rw [ho]
    exact getElem?_setStage_self hp _
  · rw [ho]
    rfl

/-- A call that returns what it comes to on the document has come to its end. -/
theorem returns_finish (hp : (s.calls[number]?).map (·.call) = some call) (locks : Locks)
    {result : Except Error Reply} (ho : call.outcome document = (s.stored, result)) :
    (s.finish number locks result).Returns number call document := by
  have hunlocked := concerns_unlock s number locks
  refine returns_setStage ((hunlocked.same number).trans hp) ?_
  rw [hunlocked.stored]
  exact ho

/-- A call that has begun to write. -/
theorem returns_storing {locks : Locks} {changed : Document} {rows : List Row}
    (ha : s.calls[number]? = some ⟨call, .storing locks changed rows none⟩)
    (ho : call.outcome document = (changed, .ok (.rows rows))) :
    s.Returns number call document := by
  have hp : (s.calls[number]?).map (·.call) = some call := congrArg (Option.map (·.call)) ha
  let written := { s with stored := changed }.setStage number
    (.storing locks changed rows (some (.ok ())))
  have hwritten : s.move (.write number none) = some written := by
    simp [System.move, writeHappens, ha, written]
  have hthere : written.calls[number]? =
      some ⟨call, .storing locks changed rows (some (.ok ()))⟩ :=
    getElem?_setStage_self hp _
  have hresumed : written.move (.resume number) =
      some (written.afterStoring number call locks rows (.ok ())) := by
    simp [System.move, resume, hthere]
  refine .step (.step ?_ .resume hresumed) .write hwritten
  obtain ⟨settled, hsettled, he⟩ := afterStoring_ok written number call locks rows
  rw [he]
  refine returns_finish ((hsettled.same number).trans (congrArg _ hthere)) locks ?_
  rw [hsettled.stored]
  exact ho

/-- A call that has read the stored document. -/
theorem returns_afterLoading (hp : (s.calls[number]?).map (·.call) = some call)
    (hc : call.Checked) (locks : Locks) :
    (s.afterLoading number call locks (.ok s.stored)).Returns number call s.stored := by
  cases call with
  | tableNames => exact returns_finish hp locks rfl
  | schema table => exact returns_finish hp locks rfl
  | execute statement =>
    have hchecked := hc statement rfl
    simp only [System.afterLoading]
    cases he : statement.effect s.stored with
    | error e => exact returns_finish hp locks (by simp only [Call.outcome, hchecked, he])
    | ok effect =>
      obtain ⟨rows, wanted⟩ := effect
      cases wanted with
      | none =>
        refine returns_finish hp locks ?_
        simp only [Call.outcome, hchecked, he, Option.getD_none]
      | some changed =>
        exact returns_storing (getElem?_setStage_self hp _) (Call.outcome_of_effect hchecked he)

/-- A call that has begun to read the document. -/
theorem returns_loading {locks : Locks}
    (ha : s.calls[number]? = some ⟨call, .loading locks none⟩) (hc : call.Checked) :
    s.Returns number call s.stored := by
  have hp : (s.calls[number]?).map (·.call) = some call := congrArg (Option.map (·.call)) ha
  let read := s.setStage number (.loading locks (some (.ok s.stored)))
  have hread : s.move (.read number none) = some read := by
    simp [System.move, readHappens, ha, read]
  have hthere : read.calls[number]? = some ⟨call, .loading locks (some (.ok s.stored))⟩ :=
    getElem?_setStage_self hp _
  have hresumed : read.move (.resume number) =
      some (read.afterLoading number call locks (.ok s.stored)) := by
    cases call <;> simp [System.move, resume, hthere]
  refine .step (.step ?_ .resume hresumed) .read hread
  exact returns_afterLoading (congrArg (Option.map (·.call)) hthere) hc locks

/-! ## From the beginning -/

/-- A call that goes on to read. -/
theorem returns_setLoading (hp : (s.calls[number]?).map (·.call) = some call)
    (hc : call.Checked) (locks : Locks) :
    (s.setStage number (.loading locks none)).Returns number call s.stored :=
  returns_loading (getElem?_setStage_self hp _) hc

/-- The commit lock is given at once. -/
theorem returns_askCommit (hf : s.commit = .ofPermits 1)
    (hp : (s.calls[number]?).map (·.call) = some call) (hc : call.Checked) (guard : Option Nat) :
    (s.askCommit number guard).Returns number call s.stored := by
  have hasked : s.askCommit number guard =
      ({ s with commit := .ofPermits 0 } : System).setStage number
        (.loading ⟨guard, true⟩ none) := by
    simp only [System.askCommit, hf]
    rfl
  have hp' : (({ s with commit := .ofPermits 0 } : System).calls[number]?).map (·.call) =
      some call := hp
  rw [hasked]
  exact returns_setLoading hp' hc _

/-- A new guard lets everybody in at once. -/
theorem request_new (number : Nat) (access : Access) :
    ((Guard.new : Guard Nat).request number access).2 = .granted := by
  cases access with
  | read => rfl
  | write => rfl

/-- A statement that has got access goes on. -/
theorem returns_enter {statement : Statement} (ha : statement.AsksGuard)
    (hf : s.commit = .ofPermits 1)
    (hp : (s.calls[number]?).map (·.call) = some (.execute statement)) (guard : Nat) :
    (s.enter number statement guard).Returns number (.execute statement) s.stored := by
  have hc : (Call.execute statement).Checked := fun other he => by
    obtain rfl : statement = other := Call.execute.inj he
    exact Statement.precheck_of_asksGuard ha
  cases statement with
  | select select => exact returns_setLoading hp hc _
  | create create => cases ha
  | insert insert => exact returns_askCommit hf hp hc _
  | update update => exact returns_askCommit hf hp hc _
  | delete delete => exact returns_askCommit hf hp hc _
  | drop drop => exact returns_askCommit hf hp hc _

/-- A new guard and the commit lock are given at once. -/
theorem returns_askGuard {statement : Statement} (ha : statement.AsksGuard)
    (hf : s.commit = .ofPermits 1)
    (hp : (s.calls[number]?).map (·.call) = some (.execute statement)) {guard : Nat}
    (hg : s.guardAt guard = Guard.new) :
    (s.askGuard number statement guard).Returns number (.execute statement) s.stored := by
  have hasked := request_new number (accessOf statement)
  rw [System.askGuard, hg]
  simp only [hasked, System.afterGuard]
  exact returns_enter (s := s.setGuard guard _) ha hf hp guard

/-- The guard of a known table is new in a system whose locks are free, also if the
table has just become known. -/
theorem Free.guardAt_register (h : s.Free) {table : String} {guard : Nat}
    (hg : (s.register table).guardOf? table = some guard) :
    (s.register table).guardAt guard = Guard.new := by
  rw [System.guardAt_register]
  cases hk : s.guardOf? table with
  | some known =>
    have hsame : s.register table = s := by simp only [System.register, hk]
    rw [hsame] at hg
    exact h.guards _ (mem_known_of_guardOf? hg)
  | none =>
    have hnew := mem_known_of_guardOf? hg
    rw [System.register, hk] at hnew
    rcases List.mem_append.mp hnew with hm | hm
    · exact h.guards _ hm
    · obtain rfl : guard = s.guards.length := congrArg Prod.snd (List.mem_singleton.mp hm)
      simp [System.guardAt]

/-- A statement that has begun to look its table up. -/
theorem returns_finding {statement : Statement} (h : s.Free) (hk : statement.AsksGuard)
    (ha : s.calls[number]? = some ⟨.execute statement, .finding none⟩) :
    s.Returns number (.execute statement) s.stored := by
  have hp : (s.calls[number]?).map (·.call) = some (.execute statement) :=
    congrArg (Option.map (·.call)) ha
  let read := s.setStage number (.finding (some (.ok s.stored)))
  have hread : s.move (.read number none) = some read := by
    simp [System.move, readHappens, ha, read]
  have hthere : read.calls[number]? = some ⟨.execute statement, .finding (some (.ok s.stored))⟩ :=
    getElem?_setStage_self hp _
  have hresumed : read.move (.resume number) =
      some (read.afterFinding number statement (.ok s.stored)) := by
    simp [System.move, resume, hthere]
  refine .step (.step ?_ .resume hresumed) .read hread
  have hp' : (read.calls[number]?).map (·.call) = some (.execute statement) :=
    congrArg (Option.map (·.call)) hthere
  have hfree : read.Free := ⟨h.guards, h.commit⟩
  simp only [System.afterFinding]
  split
  next =>
    obtain ⟨guard, hg⟩ := exists_guardOf?_register read statement.table
    have hcommit : (read.register statement.table).commit = .ofPermits 1 := by
      rw [System.register]
      split
      · exact h.commit
      · exact h.commit
    rw [← calls_register read statement.table] at hp'
    have hreturns := returns_askGuard hk hcommit hp' (hfree.guardAt_register hg)
    rw [(@concerns_register number read statement.table).stored] at hreturns
    simp only [hg]
    exact hreturns
  next hm =>
    exact returns_setStage hp' (Call.outcome_of_missing hk (Bool.eq_false_iff.mpr hm))

/-- A statement that begins. -/
theorem returns_beginStatement {statement : Statement} (h : s.Free)
    (hp : (s.calls[number]?).map (·.call) = some (.execute statement)) :
    (s.beginStatement number statement).Returns number (.execute statement) s.stored := by
  unfold System.beginStatement
  split
  next create =>
    split
    next e he =>
      refine returns_setStage hp ?_
      simp only [Call.outcome, he]
    next hc =>
      refine returns_askCommit h.commit hp (fun other he => ?_) none
      cases he
      exact hc
  next hk =>
    have ha : statement.AsksGuard := by
      cases statement with
      | create create => exact absurd rfl (hk create)
      | select | insert | update | delete | drop => trivial
    split
    next guard hg => exact returns_askGuard ha h.commit hp (h.guards _ (mem_known_of_guardOf? hg))
    next =>
      have hthere := getElem?_setStage_self hp (.finding none)
      have hfree : (s.setStage number (.finding none)).Free := ⟨h.guards, h.commit⟩
      exact returns_finding hfree ha hthere

/-- A call that begins while all locks are free. -/
theorem returns_begin (h : s.Free) (call : Call) :
    (s.begin call).Returns s.calls.length call s.stored := by
  let grown : System := { s with calls := s.calls ++ [⟨call, .loading ⟨none, false⟩ none⟩] }
  have hthere : grown.calls[s.calls.length]? = some ⟨call, .loading ⟨none, false⟩ none⟩ := by
    simp [grown]
  cases call with
  | tableNames => exact returns_loading hthere nofun
  | schema table => exact returns_loading hthere nofun
  | execute statement =>
    have hfree : grown.Free := ⟨h.guards, h.commit⟩
    exact returns_beginStatement hfree (congrArg (Option.map (·.call)) hthere)

/-! ## One call after another -/

/-- A call begins and goes on by itself, with a store that answers, until it has
returned. -/
def Makes (s : System) (call : Call) (result : Except Error Reply) (t : System) : Prop :=
  ∃ moves, (∀ move ∈ moves, move.Drives s.calls.length) ∧ (s.begin call).run moves = some t ∧
    t.Returned s.calls.length result

/-- Calls are made one at a time. -/
inductive MakesAll : System → List Call → List (Except Error Reply) → System → Prop where
  /-- No call is left. -/
  | nil (s : System) : MakesAll s [] [] s
  /-- A call is made in front of the others. -/
  | cons {s t u : System} {call : Call} {rest : List Call} {result : Except Error Reply}
    {results : List (Except Error Reply)} (first : s.Makes call result t)
    (others : MakesAll t rest results u) : MakesAll s (call :: rest) (result :: results) u

/-- A call can always begin. -/
theorem move_begin (s : System) (call : Call) : s.move (.begin call) = some (s.begin call) := rfl

/-- A call that has returned has ended. -/
theorem Returned.hasEnded {result : Except Error Reply} (h : s.Returned number result) :
    s.HasEnded number := by
  obtain ⟨call, ha⟩ := h
  exact ⟨call, _, ha, .finished result⟩

/-- The moves of one call leave the others where they stand. -/
theorem others_run {moves : List Move} (hd : ∀ move ∈ moves, move.Drives number)
    (hr : s.run moves = some t) {other : Nat} (hne : other ≠ number) :
    t.calls[other]? = s.calls[other]? := by
  induction moves generalizing s with
  | nil =>
    obtain rfl : s = t := Option.some.inj hr
    rfl
  | cons move rest ih =>
    obtain ⟨next, hm, hrest⟩ := Option.bind_eq_some_iff.mp hr
    have hcaller : move.caller s = number := by
      cases hd move List.mem_cons_self with
      | read => rfl
      | write => rfl
      | resume => rfl
    have hstep := others_move hm (hcaller.symm ▸ hne)
    exact (ih (fun m h => hd m (List.mem_cons_of_mem _ h)) hrest).trans hstep

/-- When a call has returned, every call has ended again. -/
theorem Quiet.makes (h : s.Quiet) {result : Except Error Reply} (hm : s.Makes call result t) :
    t.Quiet := by
  obtain ⟨moves, hd, hr, hreturned⟩ := hm
  intro activity ha
  obtain ⟨other, ho⟩ := List.getElem?_of_mem ha
  by_cases hne : other = s.calls.length
  · obtain ⟨call, stage, hthere, hended⟩ := hreturned.hasEnded
    rw [hne, hthere] at ho
    exact Option.some.inj ho ▸ hended
  · have hbegun : (s.begin call).calls[other]? = s.calls[other]? :=
      others_move (move_begin s call) hne
    rw [others_run hd hr hne, hbegun] at ho
    exact h activity (List.mem_of_getElem? ho)

variable {config : Config}

/-- Calls that are made one at a time lead to a system that is reached. -/
theorem Reached.makes (h : Reached config s) {result : Except Error Reply}
    (hm : s.Makes call result t) : Reached config t := by
  obtain ⟨moves, _, hr, _⟩ := hm
  exact Reached.run (h.move (move_begin s call)) hr

/-- A call that is made while every other call has ended returns, and it returns what
it comes to when it is made alone. -/
theorem Reached.makes_outcome (h : Reached config s) (hq : s.Quiet) (call : Call) :
    ∃ t, s.Makes call (call.outcome s.stored).2 t ∧ t.stored = (call.outcome s.stored).1 ∧
      ∀ result u, s.Makes call result u → result = (call.outcome s.stored).2 ∧ u = t := by
  obtain ⟨moves, t, hd, hr, hthere, hstored⟩ := returns_begin (h.free hq) call
  have hreturned : t.Returned s.calls.length (call.outcome s.stored).2 := ⟨call, hthere⟩
  refine ⟨t, ⟨moves, hd, hr, hreturned⟩, hstored, ?_⟩
  rintro result u ⟨others, ho, hr', hother⟩
  obtain rfl := run_eq_of_drives hd ho hr hr' hreturned.hasEnded hother.hasEnded
  obtain ⟨call', ha⟩ := hother
  rw [hthere] at ha
  cases ha
  exact ⟨rfl, rfl⟩

/-- Calls that are made one at a time give back what a handle gives back that makes
them one after another on the stored document. -/
theorem Reached.makesAll (h : Reached config s) (hq : s.Quiet) (handle : Handle)
    (calls : List Call) :
    ∃ t, s.MakesAll calls (makeAll calls handle s.stored).2 t ∧
      t.stored = (makeAll calls handle s.stored).1 ∧ t.Quiet ∧
      ∀ results u, s.MakesAll calls results u →
        results = (makeAll calls handle s.stored).2 ∧ u = t := by
  induction calls generalizing s handle with
  | nil => exact ⟨s, .nil s, rfl, hq, fun results u hm => by cases hm; exact ⟨rfl, rfl⟩⟩
  | cons call rest ih =>
    obtain ⟨next, hmakes, hstored, honly⟩ := h.makes_outcome hq call
    have hmake := Call.make_eq_outcome call handle s.stored
    obtain ⟨t, hall, hlast, hquiet, hrest⟩ :=
      ih (h.makes hmakes) (hq.makes hmakes) (call.make handle s.stored).1
    have hresults : makeAll (call :: rest) handle s.stored =
        ((makeAll rest (call.make handle s.stored).1 next.stored).1,
          (call.outcome s.stored).2 ::
            (makeAll rest (call.make handle s.stored).1 next.stored).2) := by
      simp only [makeAll, hmake, hstored]
    rw [hresults]
    refine ⟨t, .cons hmakes hall, hlast, hquiet, ?_⟩
    intro results u hm
    cases hm with
    | cons first others =>
      obtain ⟨rfl, rfl⟩ := honly _ _ first
      obtain ⟨rfl, rfl⟩ := hrest _ _ others
      exact ⟨rfl, rfl⟩

/-- What calls give back that are made one at a time depends on the stored document
alone. -/
theorem Reached.makesAll_congr (h : Reached config s) (hq : s.Quiet) {config' : Config}
    (h' : Reached config' t) (hq' : t.Quiet) (hs : t.stored = s.stored) (calls : List Call)
    (results : List (Except Error Reply)) :
    (∃ u, t.MakesAll calls results u) ↔ ∃ u, s.MakesAll calls results u := by
  obtain ⟨u, hall, _, _, honly⟩ := h.makesAll hq ⟨config, []⟩ calls
  obtain ⟨u', hall', _, _, honly'⟩ := h'.makesAll hq' ⟨config, []⟩ calls
  rw [hs] at hall' honly'
  constructor
  · rintro ⟨v, hv⟩
    exact ⟨u, (honly' _ _ hv).1 ▸ hall⟩
  · rintro ⟨v, hv⟩
    exact ⟨u', (honly _ _ hv).1 ▸ hall'⟩

end System

end EmbeddedSql.Session
