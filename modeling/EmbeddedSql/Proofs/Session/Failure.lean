import EmbeddedSql.Proofs.Session.Chronicle
import EmbeddedSql.Proofs.Session.Solo

/-!
# Failures leave nothing behind

A statement that fails, in whatever way, leaves what is stored as it was and keeps no
lock, and whoever comes later is answered as if it had never been made. A statement
that has nothing to change does not write at all.
-/

namespace EmbeddedSql

/-! ## Statements one after another -/

namespace Storage

variable {σ : Type}

/-- A write that fails stores nothing. -/
def Backend.Atomic (backend : Backend σ) : Prop :=
  ∀ {document : Document} {store after : σ} {e : StorageError},
    backend.write document store = (after, .error e) → after = store

/-- Memory that can refuse a write stores nothing then. -/
theorem atomic_switchable : switchable.Atomic := by
  intro document store after e h
  simp only [switchable] at h
  split at h
  · exact (Prod.mk.inj h).1.symm
  · cases (Prod.mk.inj h).2

end Storage

namespace Handle

variable {σ : Type} {backend : Storage.Backend σ}

/-- What a request gives back depends on the store alone. -/
theorem respond_snd (request : Request) (handle other : Handle) (store : σ) :
    (respond backend handle store request).2 = (respond backend other store request).2 := by
  cases request with
  | run template parameters => simp only [respond, run_snd template parameters handle other]
  | runAll script => simp only [respond, runAll_snd script handle other]
  | execute parsed => simp only [respond, execute_snd]

/-- So does what many requests give back. -/
theorem answers_congr (turns : List Turn) (handle other : Handle) (store : σ) :
    answers backend turns handle store = answers backend turns other store := by
  induction turns generalizing handle other store with
  | nil => rfl
  | cons turn rest ih =>
    obtain ⟨reopen, request⟩ := turn
    cases reopen with
    | some config => rfl
    | none =>
      have hrespond : (respond backend handle store request).2 =
          (respond backend other store request).2 := respond_snd request handle other store
      simp only [answers, handleFor, Result.ok_bind, hrespond]
      rw [ih (respond backend handle store request).1 (respond backend other store request).1]

/-- And what many statements give back. -/
theorem executeEach_congr (statements : List Sql.Statement) (handle other : Handle) (store : σ) :
    (executeEach backend statements handle store).1 =
      (executeEach backend statements other store).1 := by
  induction statements generalizing handle other store with
  | nil => rfl
  | cons statement rest ih =>
    simp only [executeEach, execute_snd]
    rw [ih (execute backend statement handle store).1 (execute backend statement other store).1]

/-- A failure has gone unnoticed: the store is what it was, and whatever is asked
afterwards, of this handle or of one that is opened on the store, is answered as it
would have been. -/
structure Unnoticed (backend : Storage.Backend σ) (handle : Handle) (store : σ)
    (after : Handle) (left : σ) : Prop where
  /-- The store is what it was. -/
  same : left = store
  /-- Requests are answered as they would have been. -/
  answered : ∀ turns, answers backend turns after left = answers backend turns handle store
  /-- Statements have the results that they would have had. -/
  executed : ∀ statements, (executeEach backend statements after left).1 =
    (executeEach backend statements handle store).1

/-- A failure that leaves the store as it was goes unnoticed, whatever handle it leaves. -/
theorem unnoticed (backend : Storage.Backend σ) (handle after : Handle) (store : σ) :
    Unnoticed backend handle store after store :=
  ⟨rfl, fun turns => answers_congr turns after handle store,
    fun statements => executeEach_congr statements after handle store⟩

/-- What fails on a handle goes unnoticed. -/
structure FailSafe (backend : Storage.Backend σ) (handle : Handle) (store : σ) : Prop where
  /-- A statement that fails goes unnoticed. -/
  statement : ∀ {statement after left e},
    execute backend statement handle store = (after, left, .error e) →
      Unnoticed backend handle store after left
  /-- A script that fails is not read and goes unnoticed, or one of its statements fails
  and goes unnoticed behind those in front of it. -/
  script : ∀ {script after left failure},
    runAll backend script handle store = (after, left, .error failure) →
      (Sql.parseScript script = .error failure.error ∧ failure.results = [] ∧
        Unnoticed backend handle store after left) ∨
      ∃ front statement rest between middle,
        Sql.parseScript script = .ok (front ++ statement :: rest) ∧
        executeAll backend [] front handle store = (between, middle, .ok failure.results) ∧
        execute backend statement between middle = (after, left, .error failure.error) ∧
        Unnoticed backend between middle after left
  /-- A template that fails has a parameter that cannot be written into it and goes
  unnoticed, or fails as the script that it becomes. -/
  template : ∀ {template parameters after left e},
    run backend template parameters handle store = (after, left, .error e) →
      (Sql.bindTemplate template parameters = .error e ∧
        Unnoticed backend handle store after left) ∨
      ∃ script done, Sql.bindTemplate template parameters = .ok script ∧
        runAll backend script handle store = (after, left, .error ⟨done, e⟩)
  /-- A statement that has nothing to change does not try to write. -/
  idle : ∀ {statement} (record : List Document),
    (∀ document, backend.read store = .ok document → statement.Idle document) →
      (execute backend.recording statement handle (store, record)).2.1 = (store, record)

variable {handle : Handle} {store : σ}

/-- The statement at which statements one after another come to a halt. -/
theorem exists_of_executeAll_error {statements : List Sql.Statement} {done : List (List Row)}
    {after : Handle} {left : σ} {failure : BatchError}
    (h : executeAll backend done statements handle store = (after, left, .error failure)) :
    ∃ front statement rest between middle, statements = front ++ statement :: rest ∧
      executeAll backend done front handle store = (between, middle, .ok failure.results) ∧
      execute backend statement between middle = (after, left, .error failure.error) := by
  induction statements generalizing done handle store with
  | nil => cases h
  | cons statement rest ih =>
    rw [executeAll] at h
    split at h
    next between middle rows he =>
      obtain ⟨front, failing, behind, last, there, rfl, hfront, hfailing⟩ := ih h
      refine ⟨statement :: front, failing, behind, last, there, rfl, ?_, hfailing⟩
      simp only [executeAll, he, hfront]
    next between middle e he =>
      cases h
      exact ⟨[], statement, rest, handle, store, rfl, rfl, he⟩

/-- A statement that fails leaves the store as it was. -/
theorem unnoticed_of_error (ha : backend.Atomic) {statement : Sql.Statement} {after : Handle}
    {left : σ} {e : Error}
    (h : execute backend statement handle store = (after, left, .error e)) :
    Unnoticed backend handle store after left := by
  have hr : outcome backend statement store = (left, .error e) := by
    rw [← execute_snd statement handle store, h]
  have hsame : left = store := by
    rcases outcome_error hr with hsame | ⟨changed, f, hw⟩
    · exact hsame
    · exact ha hw
  rw [hsame]
  exact unnoticed backend handle after store

/-- A statement that has nothing to change leaves the store and its record. -/
theorem outcome_of_idle {statement : Sql.Statement}
    (h : ∀ document, backend.read store = .ok document → statement.Idle document) :
    (outcome backend statement store).1 = store := by
  rw [outcome]
  split
  · rfl
  · split
    · rfl
    next effect he =>
      obtain ⟨document, hl, he⟩ := Result.bind_eq_ok_iff.mp he
      have hidle := h document (Result.mapError_eq_ok_iff.mp hl)
      rw [commit, hidle.store_eq_none he]

/-- On a store whose failing writes store nothing, whatever fails goes unnoticed. -/
theorem failSafe (ha : backend.Atomic) (handle : Handle) (store : σ) :
    handle.FailSafe backend store where
  statement h := unnoticed_of_error ha h
  script {script after left failure} h := by
    rw [runAll] at h
    split at h
    next e he =>
      cases h
      exact .inl ⟨he, rfl, unnoticed backend handle handle store⟩
    next statements hs =>
      obtain ⟨front, statement, rest, between, middle, rfl, hfront, hfailing⟩ :=
        exists_of_executeAll_error h
      exact .inr ⟨front, statement, rest, between, middle, hs, hfront, hfailing,
        unnoticed_of_error ha hfailing⟩
  template {template parameters after left e} h := by
    rw [run_eq] at h
    split at h
    next e he =>
      cases h
      exact .inl ⟨he, unnoticed backend handle handle store⟩
    next script hs =>
      split at h
      · cases h
      next between middle failure hr =>
        cases h
        exact .inr ⟨script, failure.results, hs, hr⟩
  idle {statement} record h := by
    have hread : ∀ document, backend.recording.read (store, record) = .ok document →
        statement.Idle document := h
    rw [execute_snd]
    exact outcome_of_idle hread

end Handle

/-! ## Calls side by side -/

namespace Session.System

open Sql Lock

variable {s t : System} {number : Nat} {config : Config} {document : Document}
  {known : List String} {moves : List Move}

/-- A call has returned an error. -/
def HasFailed (s : System) (number : Nat) : Prop :=
  ∃ call e, s.calls[number]? = some ⟨call, .finished (.error e)⟩

/-- A call that has returned an error has ended. -/
theorem HasFailed.hasEnded (h : s.HasFailed number) : s.HasEnded number := by
  obtain ⟨call, e, ha⟩ := h
  exact ⟨call, _, ha, .finished _⟩

/-- The error that a call has returned. -/
def failureOf (s : System) (number : Nat) : Option Error :=
  match s.calls[number]? with
  | some ⟨_, .finished (.error e)⟩ => some e
  | _ => none

/-- A call whose error is told has returned it. -/
theorem returned_of_failureOf {e : Error} (h : s.failureOf number = some e) :
    s.Returned number (.error e) := by
  rw [failureOf] at h
  split at h
  next call e' ha =>
    cases h
    exact ⟨call, ha⟩
  next => cases h

/-- A call whose error is told has failed. -/
theorem hasFailed_of_failureOf {e : Error} (h : s.failureOf number = some e) :
    s.HasFailed number := by
  obtain ⟨call, ha⟩ := returned_of_failureOf h
  exact ⟨call, e, ha⟩

/-- The write of a call that fails does not take place. -/
theorem HasFailed.not_mem (h : t.HasFailed number) (hr : s.run moves = some t) :
    .write number none ∉ moves := by
  intro hw
  obtain ⟨call, stage, ha, hb⟩ := behindWrite_of_mem hr hw
  obtain ⟨call', e, hf⟩ := h
  rw [hf] at ha
  cases ha
  cases hb

/-- What fails in a run of a system goes unnoticed. -/
structure FailSafe (config : Config) (document : Document) (known : List String)
    (moves : List Move) (s : System) : Prop where
  /-- No move of a call that fails stores anything. -/
  stored : ∀ {number front move back before after}, s.HasFailed number →
    moves = front ++ move :: back → (ofDocument config document known).run front = some before →
    before.move move = some after → move.caller before = number → after.stored = before.stored
  /-- A call that has failed neither waits at a lock nor holds one. -/
  gone : ∀ {number}, s.HasFailed number → ∀ guard,
    number ∉ s.commit.clients ∧ number ∉ (s.guardAt guard).entry.clients ∧
      number ∉ (s.guardAt guard).exclusion.clients ∧
      (∀ r ∈ (s.guardAt guard).waiting, r.client ≠ number) ∧
      ∀ hold ∈ (s.guardAt guard).holding, hold.client ≠ number
  /-- Every permit is spare, or with a call that waits for it or holds it. -/
  conserves : s.Conserves
  /-- The calls whose results tell what came of them took effect in some order. -/
  complete : ∀ {number result}, s.Returned number result → counts result = true →
    number ∈ (ofDocument config document known).order moves s
  /-- A call that had ended before another one began took effect before it. -/
  timely : ∀ {front back before earlier later}, moves = front ++ back →
    (ofDocument config document known).run front = some before → before.HasEnded earlier →
    before.calls.length ≤ later → earlier ∈ (ofDocument config document known).order moves s →
    later ∈ (ofDocument config document known).order moves s →
    [earlier, later].Sublist ((ofDocument config document known).order moves s)
  /-- Made one after another in this order, without one that has failed, the calls have
  the results that they have and leave what is stored. -/
  replayed : ∀ {number}, s.HasFailed number → ∃ calls results,
    List.Forall₂ (fun other call => (s.calls[other]?).map (·.call) = some call)
      (((ofDocument config document known).order moves s).filter (· ≠ number)) calls ∧
    makeAll calls ⟨config, known⟩ document = (s.stored, results) ∧
    List.Forall₂ (fun other result => ∀ given, s.Returned other given → given = result)
      (((ofDocument config document known).order moves s).filter (· ≠ number)) results
  /-- If all calls since every call had ended have failed, calls that are made one at a
  time after them give back what they would have given back before them. -/
  since : ∀ {front back before}, moves = front ++ back →
    (ofDocument config document known).run front = some before → before.Quiet →
    (∀ other, before.calls.length ≤ other → other < s.calls.length → s.HasFailed other) →
    s.Quiet ∧ s.stored = before.stored ∧
      ∀ calls results, (∃ t, s.MakesAll calls results t) ↔ ∃ t, before.MakesAll calls results t
  /-- Once every call has ended all locks are free, and calls that are made one at a time
  return and give back what a handle gives back on the stored document. -/
  later : s.Quiet → s.Free ∧ ∀ calls, ∃ t,
    s.MakesAll calls (makeAll calls ⟨config, known⟩ s.stored).2 t ∧
      ∀ results u, s.MakesAll calls results u →
        results = (makeAll calls ⟨config, known⟩ s.stored).2 ∧ u = t
  /-- A statement that writes, or is refused to, has something to change in what is
  stored. -/
  idle : ∀ {front back number failure before statement stage},
    moves = front ++ .write number failure :: back →
    (ofDocument config document known).run front = some before →
    before.calls[number]? = some ⟨.execute statement, stage⟩ → ¬ statement.Idle before.stored

/-- Without a write that takes place nothing is stored. -/
theorem stored_run (hr : s.run moves = some t) (hw : ∀ number, .write number none ∉ moves) :
    t.stored = s.stored := by
  induction moves generalizing s with
  | nil =>
    obtain rfl : s = t := Option.some.inj hr
    rfl
  | cons move rest ih =>
    obtain ⟨next, hm, hrest⟩ := Option.bind_eq_some_iff.mp hr
    have hstep := stored_move hm fun number he => hw number (he ▸ List.mem_cons_self)
    exact (ih hrest fun number h => hw number (List.mem_cons_of_mem _ h)).trans hstep

/-- The parts of a run that is made in two parts. -/
theorem exists_of_run_append {front back : List Move} (h : s.run (front ++ back) = some t) :
    ∃ middle, s.run front = some middle ∧ middle.run back = some t := by
  rw [run_append] at h
  exact Option.bind_eq_some_iff.mp h

/-- The calls of a run could have been made one after another without those that stored
nothing. -/
theorem replayed_filter (hr : (ofDocument config document known).run moves = some s)
    (keep : Nat → Bool)
    (hk : ∀ entry ∈ (ofDocument config document known).record moves,
      keep entry.number = false → entry.after = entry.before) :
    ∃ calls results,
      List.Forall₂ (fun other call => (s.calls[other]?).map (·.call) = some call)
        (((ofDocument config document known).order moves s).filter keep) calls ∧
      makeAll calls ⟨config, known⟩ document = (s.stored, results) ∧
      List.Forall₂ (fun other result => ∀ given, s.Returned other given → given = result)
        (((ofDocument config document known).order moves s).filter keep) results := by
  have hstart := sound_ofDocument config document known
  obtain ⟨owners, hs⟩ := hstart.run hr
  rw [List.nil_append] at hs
  have hparts := hs.chained.filter (fun entry => s.takesPart moves entry.number)
    fun entry he hp => hstart.after_of_not_takesPart hr he hp
  have hchained := hparts.filter (fun entry => keep entry.number)
    fun entry he hkeep => hk entry (List.mem_filter.mp he).1 hkeep
  have horder : ((ofDocument config document known).order moves s).filter keep =
      ((((ofDocument config document known).record moves).filter
        fun entry => s.takesPart moves entry.number).filter
          fun entry => keep entry.number).map (·.number) := by
    rw [order, List.filter_map]
    rfl
  rw [horder]
  refine ⟨_, _, ?_, makeAll_of_chained hchained ⟨config, known⟩, ?_⟩
  · rw [List.forall₂_map_left_iff, List.forall₂_map_right_iff, List.forall₂_same]
    intro entry he
    exact hs.numbered entry (List.mem_filter.mp (List.mem_filter.mp he).1).1
  · rw [List.forall₂_map_left_iff, List.forall₂_map_right_iff, List.forall₂_same]
    intro entry he given hgiven
    have hm := List.mem_filter.mp (List.mem_filter.mp he).1
    exact hs.result_of_returned hm.1 hm.2 hgiven

/-- If all calls since every call had ended have failed, nothing was stored since then,
and every call has ended again. -/
theorem Quiet.of_failed (hq : s.Quiet) (hr : s.run moves = some t)
    (hf : ∀ other, s.calls.length ≤ other → other < t.calls.length → t.HasFailed other) :
    t.Quiet ∧ t.stored = s.stored := by
  have hold {other : Nat} (hl : other < s.calls.length) :
      (∃ activity, t.calls[other]? = some activity ∧ activity.stage.Ended) ∧
        .write other none ∉ moves := by
    have hthere : s.calls[other]? = some s.calls[other] := List.getElem?_eq_getElem hl
    have hended : s.calls[other].stage.Ended := hq _ (List.getElem_mem hl)
    obtain ⟨hsame, hw⟩ := run_of_ended hr hthere hended
    exact ⟨⟨_, hsame, hended⟩, hw⟩
  constructor
  · intro activity hm
    obtain ⟨other, ho⟩ := List.getElem?_of_mem hm
    by_cases hl : other < s.calls.length
    · obtain ⟨⟨same, hsame, hended⟩, _⟩ := hold hl
      rw [ho] at hsame
      exact Option.some.inj hsame ▸ hended
    · have hlt := (List.getElem?_eq_some_iff.mp ho).1
      obtain ⟨call, e, ha⟩ := hf other (Nat.le_of_not_lt hl) hlt
      rw [ho] at ha
      exact Option.some.inj ha ▸ .finished _
  · refine stored_run hr fun other hw => ?_
    by_cases hl : other < s.calls.length
    · exact (hold hl).2 hw
    · obtain ⟨call, stage, ha, _⟩ := behindWrite_of_mem hr hw
      have hlt := (List.getElem?_eq_some_iff.mp ha).1
      exact (hf other (Nat.le_of_not_lt hl) hlt).not_mem hr hw

/-- A statement that has begun to write has something to change. -/
theorem not_idle_of_write {first : Document} {owners : List String} {record : List Entry}
    (h : s.Sound first owners record) {failure : Option StorageError}
    (hm : s.move (.write number failure) = some t) {statement : Statement} {stage : Stage}
    (ha : s.calls[number]? = some ⟨.execute statement, stage⟩) :
    ¬ statement.Idle s.stored := by
  have hm : s.writeHappens number failure = some t := hm
  obtain ⟨call, locks, changed, rows, hthere, _⟩ := exists_of_writeHappens hm
  rw [ha] at hthere
  cases hthere
  intro hidle
  cases h.accounted ha with
  | storing _ _ _ effect written =>
    rw [← written.1] at effect
    exact absurd (hidle.store_eq_none effect) nofun

/-- Whatever fails in a run of a system on a document goes unnoticed. -/
theorem failSafe (hn : known.Nodup) (hr : (ofDocument config document known).run moves = some s) :
    FailSafe config document known moves s := by
  have hreached : Reached config s := (Reached.opened document hn).run hr
  have hstart := sound_ofDocument config document known
  obtain ⟨owners, hsound⟩ := hstart.run hr
  rw [List.nil_append] at hsound
  constructor
  · rintro number front move back before after hf rfl hfront hm rfl
    refine stored_move hm ?_
    rintro other rfl
    exact hf.not_mem hr (List.mem_append_right _ List.mem_cons_self)
  · intro number hf guard
    have hended (activity : Activity) (ha : s.calls[number]? = some activity) :
        activity.stage.Ended := by
      obtain ⟨call, stage, hthere, hended⟩ := hf.hasEnded
      rw [ha] at hthere
      exact Option.some.inj hthere ▸ hended
    obtain ⟨hspot, hdesk⟩ := spotOf_of_ended hended
    exact hreached.gone hspot hdesk guard
  · exact hreached.conserves
  · rintro number result ⟨call, ha⟩ hc
    exact (mem_order_iff hr hsound).mpr (by simpa [takesPart, ha] using hc)
  · rintro front back before earlier later rfl hfront he hl hearlier hlater
    obtain ⟨middle, hmiddle, hback⟩ := exists_of_run_append hr
    obtain rfl : middle = before := Option.some.inj (hmiddle.symm.trans hfront)
    exact order_of_ended hstart hfront hback he hl ((mem_order_iff hr hsound).mp hearlier) hlater
  · intro number hf
    refine replayed_filter hr _ fun entry he hkeep => ?_
    obtain rfl : entry.number = number := by simpa using hkeep
    exact (hstart.after_of_mem_record hr he).resolve_right (hf.not_mem hr)
  · rintro front back before rfl hfront hq hf
    obtain ⟨middle, hmiddle, hback⟩ := exists_of_run_append hr
    obtain rfl : middle = before := Option.some.inj (hmiddle.symm.trans hfront)
    obtain ⟨hquiet, hstored⟩ := hq.of_failed hback hf
    have hearlier : Reached config middle := (Reached.opened document hn).run hfront
    exact ⟨hquiet, hstored, hearlier.makesAll_congr hq hreached hquiet hstored⟩
  · intro hq
    refine ⟨hreached.free hq, fun calls => ?_⟩
    obtain ⟨t, hall, _, _, honly⟩ := hreached.makesAll hq ⟨config, known⟩ calls
    exact ⟨t, hall, honly⟩
  · rintro front back number failure before statement stage rfl hfront ha
    obtain ⟨middle, hmiddle, hback⟩ := exists_of_run_append hr
    obtain rfl : middle = before := Option.some.inj (hmiddle.symm.trans hfront)
    obtain ⟨after, hm, _⟩ := Option.bind_eq_some_iff.mp hback
    obtain ⟨_, hearlier⟩ := hstart.run hfront
    exact not_idle_of_write hearlier hm ha

end Session.System

/-- Whatever fails leaves what is stored as it was, keeps no lock, and changes no answer
that is given later: a request to a handle whose store keeps what it holds when a write
fails, and a call among others under way on one handle. What has nothing to change is not
written, and would be written as it is. -/
theorem failures_unnoticed {σ : Type} {backend : Storage.Backend σ} (ha : backend.Atomic)
    (config : Config) (document : Document) {known : List String} (hn : known.Nodup)
    {moves : List Session.Move} {s : Session.System}
    (hr : (Session.System.ofDocument config document known).run moves = some s) :
    (∀ (handle : Handle) (store : σ), handle.FailSafe backend store) ∧
    Session.System.FailSafe config document known moves s ∧
    ∀ {stored : Document} {statement : Sql.Statement}, statement.Idle stored →
      (∀ effect, statement.effect stored = .ok effect → effect.store = none) ∧
      ∀ table, stored.find? statement.table = some table → statement.tableAfter table = table :=
  ⟨fun handle store => Handle.failSafe ha handle store, Session.System.failSafe hn hr,
    fun hidle => ⟨fun _ he => hidle.store_eq_none he, fun _ hf => hidle.tableAfter_eq hf⟩⟩

/-- An insertion whose write is refused, a selection whose read is refused and a removal
of a missing table fail one after another; the insertion works when it is made again. A
refused insertion on a handle goes unnoticed, and an update of a table without rows has
nothing to change. -/
theorem failures_unnoticed_of_refused :
    let table : Table := .ofSchema [⟨"a", .text⟩]
    let document : Document := ⟨[("t", table)], List.pairwise_singleton _ _⟩
    let insert : Sql.Statement := .insert ⟨"t", .all, [[.text "x"]], .all⟩
    let update : Sql.Statement := .update ⟨"t", [⟨"a", .text "y"⟩], [], .all⟩
    let moves : List Session.Move :=
      [.begin (.execute insert), .read 0 none, .resume 0, .write 0 (some .writeRefused), .resume 0,
        .begin (.execute (.select ⟨"t", .all, []⟩)), .read 1 (some .readRefused), .resume 1,
        .begin (.execute (.drop ⟨"u", false⟩)), .read 2 none, .resume 2]
    let refusing : Storage.Switchable := ⟨document, false, true, 0⟩
    (∃ s, (Session.System.ofDocument ⟨some ⟨1⟩⟩ document ["t"]).run moves = some s ∧
      s.failureOf 0 = some (.storage .writeRefused) ∧
      s.failureOf 1 = some (.storage .readRefused) ∧
      s.failureOf 2 = some (.catalog (.tableNotFound "u")) ∧
      Session.System.FailSafe ⟨some ⟨1⟩⟩ document ["t"] moves s ∧ s.stored = document ∧
      ∃ t, s.MakesAll [.execute insert] [.ok (.rows [⟨[("a", .text "x")]⟩])] t) ∧
    (∃ after, Handle.execute Storage.switchable insert ⟨.default, []⟩ refusing =
      (after, refusing, .error (.storage .writeRefused)) ∧
      Handle.Unnoticed Storage.switchable ⟨.default, []⟩ refusing after refusing) ∧
    update.Idle document ∧ update.tableAfter table = table := by
  intro table document insert update moves refusing
  have hrun : ((Session.System.ofDocument ⟨some ⟨1⟩⟩ document ["t"]).run moves).map
      (fun s => (s.calls.length, s.failureOf 0, s.failureOf 1, s.failureOf 2)) =
      some (3, some (.storage .writeRefused), some (.storage .readRefused),
        some (.catalog (.tableNotFound "u"))) := by
    decide +kernel
  obtain ⟨s, hr, hs⟩ := Option.map_eq_some_iff.mp hrun
  obtain ⟨hlength, h0, h1, h2⟩ : s.calls.length = 3 ∧
      s.failureOf 0 = some (.storage .writeRefused) ∧
      s.failureOf 1 = some (.storage .readRefused) ∧
      s.failureOf 2 = some (.catalog (.tableNotFound "u")) := by
    simpa using hs
  obtain ⟨hhandle, hsystem, hidle⟩ :=
    failures_unnoticed Storage.atomic_switchable ⟨some ⟨1⟩⟩ document (List.nodup_singleton "t") hr
  refine ⟨⟨s, hr, h0, h1, h2, hsystem, ?_⟩, ?_, ?_⟩
  · have hfailed : ∀ other < s.calls.length, s.HasFailed other := by
      intro other hl
      rw [hlength] at hl
      match other, hl with
      | 0, _ => exact Session.System.hasFailed_of_failureOf h0
      | 1, _ => exact Session.System.hasFailed_of_failureOf h1
      | 2, _ => exact Session.System.hasFailed_of_failureOf h2
    have hfresh : (Session.System.ofDocument ⟨some ⟨1⟩⟩ document ["t"]).Quiet :=
      fun activity hm => absurd hm List.not_mem_nil
    have hstart : (Session.System.ofDocument ⟨some ⟨1⟩⟩ document ["t"]).run [] = some _ := rfl
    obtain ⟨hquiet, hstored, _⟩ := hsystem.since (List.nil_append moves).symm hstart hfresh
      fun other _ hl => hfailed other hl
    obtain ⟨t, hall, _⟩ := (hsystem.later hquiet).2 [.execute insert]
    have hresults : (Session.makeAll [.execute insert] ⟨⟨some ⟨1⟩⟩, ["t"]⟩ document).2 =
        [.ok (.rows [⟨[("a", .text "x")]⟩])] := by
      decide +kernel
    rw [hstored] at hall
    exact ⟨hstored, t, hresults ▸ hall⟩
  · have hexecuted : Handle.execute Storage.switchable insert ⟨.default, []⟩ refusing =
        (⟨.default, ["t"]⟩, refusing, .error (.storage .writeRefused)) := by
      rfl
    exact ⟨_, hexecuted, (hhandle _ _).statement hexecuted⟩
  · have hnothing : update.Idle document := by
      intro found hf row hm
      obtain rfl : table = found := Option.some.inj hf
      cases hm
    exact ⟨hnothing, (hidle hnothing).2 table rfl⟩

end EmbeddedSql
