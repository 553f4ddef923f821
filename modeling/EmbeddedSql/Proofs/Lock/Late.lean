import EmbeddedSql.Proofs.Lock.Closing
import EmbeddedSql.Proofs.Lock.Gate
import EmbeddedSql.Proofs.Lock.Refinement

/-!
# A guard between two looks

Whatever is done at a new guard, and however late requests are looked at, the guard is
closed or stands in one of the four ways, with the clients around who have asked and are
not gone. When nothing is left to be done it stands as the machine with one queue makes
it.
-/

namespace EmbeddedSql.Lock

variable {τ : Type}

namespace Guard

variable [DecidableEq τ]

/-- The guard when an event has happened and before any request is looked at. -/
def happen (g : Guard τ) : Event τ → Guard τ
  | .request client access => (g.request client access).1
  | .release client => g.release client
  | .cancel client => g.cancel client
  | .close => g.close

/-- The guard after an action. -/
def act (g : Guard τ) : Action τ → Guard τ
  | .event event => g.happen event
  | .look client => (g.poll client).1

/-- The guard after some actions. -/
def run (g : Guard τ) (actions : List (Action τ)) : Guard τ :=
  actions.foldl act g

/-- Some actions and then some more are one list of actions. -/
theorem run_append (g : Guard τ) (front back : List (Action τ)) :
    g.run (front ++ back) = (g.run front).run back :=
  List.foldl_append

/-- A look while requests are settled is a look at the request of that client. -/
theorem guard_look (outcome : Outcome τ) (client : τ) :
    (look outcome client).guard = (outcome.guard.poll client).1 := by
  unfold look
  split
  next h => rw [h]
  next h => rw [h]
  next h => rw [h]

/-- Looking at the requests until nothing changes is looking at one after another. -/
theorem exists_settle_eq (g : Guard τ) :
    ∃ clients : List τ, g.settle.guard = g.run (clients.map .look) := by
  have hlooks (clients : List τ) (outcome : Outcome τ) :
      (clients.foldl look outcome).guard = outcome.guard.run (clients.map .look) := by
    induction clients generalizing outcome with
    | nil => rfl
    | cons client rest ih =>
      rw [List.foldl_cons, ih, guard_look]
      rfl
  have hrounds (rounds : Nat) (outcome : Outcome τ) :
      ∃ clients : List τ,
        (lookRounds rounds outcome).guard = outcome.guard.run (clients.map .look) := by
    induction rounds generalizing outcome with
    | zero => exact ⟨[], rfl⟩
    | succ rounds ih =>
      obtain ⟨clients, hclients⟩ := ih (lookAll outcome)
      refine ⟨outcome.guard.waiting.map (·.client) ++ clients, ?_⟩
      rw [lookRounds, hclients, lookAll, hlooks, List.map_append, run_append]
  exact hrounds _ _

/-- An event is followed by looks until nothing changes. -/
theorem guard_handle (g : Guard τ) (event : Event τ) :
    (g.handle event).guard = (g.happen event).settle.guard := by
  cases event with
  | request client access =>
    simp only [handle, noteRequest, happen]
    split
    next h => rw [h]
    next h => rw [h]
    next h => rw [h]
  | _ => rfl

/-- A guard that is looked at after every event until nothing changes is one to which
actions lead. -/
theorem exists_run_eq_after (g : Guard τ) (events : List (Event τ)) :
    ∃ actions : List (Action τ),
      g.after events = g.run actions ∧ actions.filterMap Action.event? = events := by
  induction events generalizing g with
  | nil => exact ⟨[], rfl, rfl⟩
  | cons event rest ih =>
    obtain ⟨looks, hlooks⟩ := exists_settle_eq (g.happen event)
    obtain ⟨later, hlater, hevents⟩ := ih (g.handle event).guard
    refine ⟨.event event :: looks.map .look ++ later, ?_, ?_⟩
    · rw [after, List.foldl_cons, ← after, hlater, guard_handle, hlooks, run_append]
      rfl
    · have hnone : (looks.map Action.look).filterMap Action.event? = [] := by
        simp [Action.event?]
      have hfirst : (Action.event event :: looks.map .look).filterMap Action.event? = [event] :=
        congrArg (event :: ·) hnone
      rw [List.filterMap_append, hfirst, hevents, List.singleton_append]

/-- A closed guard stays closed. -/
theorem closes_act {g : Guard τ} (h : g.Closes true) (action : Action τ) :
    (g.act action).Closes true := by
  cases action with
  | look client => exact closes_poll h client
  | event event =>
    cases event with
    | request client access => exact closes_request h client access
    | release client => exact closes_release h client
    | cancel client => exact closes_cancel h client
    | close => exact closes_close g

end Guard

/-! ## Those who wait at the entry behind others -/

namespace Guard

/-- A guard with requests that wait at its entry behind those that are there. -/
def behind (front : Guard τ) (queue : List (Ask τ)) : Guard τ :=
  { front with
    entry := { front.entry with queue := queue.map (·.client) }
    waiting := front.waiting ++ queue.map (·.waitingAt .entry) }

/-- If the entry is taken, a request is the last of them. -/
theorem request_behind {front : Guard τ} (hc : front.entry.closed = false)
    (hp : front.entry.permits = 0) (queue : List (Ask τ)) (client : τ) (access : Access) :
    ((front.behind queue).request client access).1 =
      front.behind (queue ++ [⟨client, access⟩]) := by
  obtain ⟨⟨permits, line, assigned, closed⟩, exclusion, readers, waiting, holding⟩ := front
  simp only at hc hp
  subst hc hp
  simp [request, behind, Semaphore.request, afterEntry, Ask.waitingAt]

variable [DecidableEq τ]

/-- Whoever is found among those who wait, but not in front, waits at the entry. -/
theorem find?_behind {front : Guard τ} {client : τ}
    (hf : client ∉ front.waiting.map (·.client)) (queue : List (Ask τ)) :
    (front.behind queue).find? client =
      (queue.find? fun ask => ask.client = client).map (·.waitingAt .entry) := by
  have hnone : front.waiting.find? (fun request => decide (request.client = client)) = none := by
    rw [List.find?_eq_none]
    intro request hm he
    exact hf (of_decide_eq_true he ▸ List.mem_map_of_mem hm)
  rw [find?, behind, List.find?_append, hnone, Option.none_or, List.find?_map]
  rfl

/-- Somebody behind withdraws a request. -/
theorem cancel_behind {front : Guard τ} {client : τ}
    (hf : client ∉ front.waiting.map (·.client)) (ha : client ∉ front.entry.assigned)
    {queue : List (Ask τ)} (hn : (queue.map (·.client)).Nodup) :
    (front.behind queue).cancel client =
      front.behind (queue.filter fun ask => decide (ask.client ≠ client)) := by
  have hfront : front.waiting.filter (fun request => decide (request.client ≠ client)) =
      front.waiting :=
    filter_of_not_mem Request.client hf
  rw [cancel, find?_behind hf]
  cases hq : queue.find? (fun ask => decide (ask.client = client)) with
  | none =>
    have hall : queue.filter (fun ask => decide (ask.client ≠ client)) = queue := by
      rw [List.filter_eq_self]
      exact fun ask hm => by simpa using List.find?_eq_none.mp hq ask hm
    rw [hall]
    rfl
  | some ask =>
    have herase := erase_clients hn client
    have hwaiting := filter_waitingAt queue client .entry
    simp only [Option.map_some, forget, behind, List.filter_append, hfront, hwaiting]
    simp only [Ask.waitingAt, Semaphore.cancel, if_neg ha, herase]

/-- Nobody behind can move. -/
theorem poll_behind {front : Guard τ} {client : τ}
    (hf : client ∉ front.waiting.map (·.client)) (ha : client ∉ front.entry.assigned)
    (hc : front.entry.closed = false) (queue : List (Ask τ)) :
    ((front.behind queue).poll client).1 = front.behind queue := by
  rw [poll, find?_behind hf]
  cases hq : queue.find? (fun ask => decide (ask.client = client)) with
  | none => rfl
  | some ask =>
    have hp := List.find?_some hq
    have hask : ask.client = client := of_decide_eq_true hp
    have hstays : (front.behind queue).advance (ask.waitingAt .entry) =
        (front.behind queue, .waiting .entry) := by
      simp [advance, Ask.waitingAt, behind, Semaphore.poll, hc, hask, ha, afterEntry]
    have hsame : (front.behind queue).waiting.map (fun other =>
        if other.client = client then { other with stage := .entry } else other) =
        (front.behind queue).waiting := by
      refine (List.map_congr_left fun other hm => ?_).trans (List.map_id _)
      split
      next he =>
        rcases List.mem_append.mp hm with hm | hm
        · exact absurd (he ▸ List.mem_map_of_mem hm) hf
        · obtain ⟨ask, _, rfl⟩ := List.mem_map.mp hm
          rfl
      next => rfl
    simp only [Option.map_some, hstays, hsame]

end Guard

/-! ## What the guard does -/

namespace Gate

/-! The guard with all but the first who wait behind those in front. -/

/-- The guard with readers or nobody inside and nobody who waits has its entry free. -/
theorem guard_entering_nil (holding : List (Hold τ)) :
    (entering holding []).guard =
      ⟨⟨1, [], [], false⟩, ⟨if holding.isEmpty then 1 else 0, [], [], false⟩, holding.length, [],
        holding⟩ := rfl

/-- The guard with a writer inside has no permit free, and everyone waits at the entry. -/
theorem guard_writing (writer : τ) (queue : List (Ask τ)) :
    (writing writer queue).guard =
      Guard.behind ⟨⟨0, [], [], false⟩, ⟨0, [], [], false⟩, 0, [], [⟨writer, .write⟩]⟩ queue :=
  Reference.guard_writing false writer queue

/-- The guard whose entry has been assigned to the first who waits has the others behind. -/
theorem guard_entering_cons (holding : List (Hold τ)) (first : Ask τ) (rest : List (Ask τ)) :
    (entering holding (first :: rest)).guard =
      Guard.behind ⟨⟨0, [], [first.client], false⟩,
        ⟨if holding.isEmpty then 1 else 0, [], [], false⟩, holding.length,
        [first.waitingAt .entry], holding⟩ rest := rfl

/-- The guard with readers inside and a writer at the exclusion has the others at the entry. -/
theorem guard_blocked {holding : List (Hold τ)} (h : Reads holding) (writer : τ)
    (queue : List (Ask τ)) :
    (blocked holding writer queue).guard =
      Guard.behind ⟨⟨0, [], [], false⟩, ⟨0, [writer], [], false⟩, holding.length,
        [⟨writer, .write, .exclusion⟩], holding⟩ queue :=
  Reference.guard_blocked h writer queue

/-- The guard that nobody is inside any more has its exclusion assigned to the writer who waits
there, and the others wait at the entry. -/
theorem guard_cleared (writer : τ) (queue : List (Ask τ)) :
    (cleared writer queue).guard =
      Guard.behind ⟨⟨0, [], [], false⟩, ⟨0, [], [writer], false⟩, 0,
        [⟨writer, .write, .exclusion⟩], []⟩ queue := rfl

variable {gate : Gate τ}

/-- A request at the guard is the request in the way in which it stands. -/
theorem Sound.guard_request (h : gate.Sound) (client : τ) (access : Access) :
    (gate.guard.request client access).1 = (gate.request ⟨client, access⟩).guard := by
  cases gate with
  | writing writer queue =>
    rw [guard_writing, Guard.request_behind rfl rfl, Gate.request, guard_writing]
  | entering holding queue =>
    cases queue with
    | nil =>
      -- Only where nobody waits can the request get past the entry at once.
      rw [guard_entering_nil]
      cases access with
      | read =>
        simp only [Gate.request, pass]
        rw [guard_entering_nil]
        cases holding with
        | nil =>
          simp [Guard.request, Semaphore.request, Guard.afterEntry, Guard.afterExclusion,
            Guard.countReader, Semaphore.release, Ask.hold]
        | cons hold others =>
          simp [Guard.request, Semaphore.request, Guard.afterEntry, Guard.countReader,
            Semaphore.release, Ask.hold]
      | write =>
        cases holding with
        | nil =>
          simp [Gate.request, pass, guard, Reference.guard_writing, Guard.request,
            Semaphore.request, Guard.afterEntry, Guard.afterExclusion]
        | cons hold others =>
          simp [Gate.request, pass, guard, Reference.guard_blocked h, Guard.request,
            Semaphore.request, Guard.afterEntry, Guard.afterExclusion]
    | cons first rest =>
      rw [guard_entering_cons, Guard.request_behind rfl rfl, Gate.request, List.cons_append,
        guard_entering_cons]
  | blocked holding writer queue =>
    rw [guard_blocked h.1, Guard.request_behind rfl rfl, Gate.request, guard_blocked h.1]
  | cleared writer queue =>
    rw [guard_cleared, Guard.request_behind rfl rfl, Gate.request, guard_cleared]

variable [DecidableEq τ]

/-- Whoever leaves those inside was one of them, or all of them stay. -/
theorem release_of_absent {g : Guard τ} {client : τ} (h : client ∉ g.holding.map (·.client)) :
    g.release client = g :=
  Guard.release_of_not_mem fun _ hm he => h (he ▸ List.mem_map_of_mem hm)

/-- One of the readers leaves while the entry is on its way to the first who waits. -/
theorem release_opened {holding : List (Hold τ)} {client : τ} (hr : Reads holding)
    (hn : (holding.map (·.client)).Nodup) (hm : client ∈ holding.map (·.client))
    (queue : List (Ask τ)) :
    (Guard.opened holding queue).release client =
      Guard.opened (holding.filter fun hold => decide (hold.client ≠ client)) queue := by
  have hlength := Guard.length_filter_client hn hm
  have hi : holding ≠ [] := fun he => by simp [he] at hm
  have hleaves := @Guard.release_of_reads τ _ (Guard.opened holding queue) hr client hm
  rw [hleaves]
  simp only [Guard.opened]
  generalize (holding.filter fun hold => decide (hold.client ≠ client)) = others at hlength ⊢
  cases others with
  | nil => simp [Guard.uncountReader, ← hlength, Semaphore.release, hi]
  | cons hold rest => simp [Guard.uncountReader, ← hlength, hi]

/-- Giving access back at the guard is leaving in the way in which it stands. -/
theorem Sound.guard_release (h : gate.Sound) (hn : gate.machine.clients.Nodup) (client : τ) :
    gate.guard.release client = (gate.release client).guard := by
  have hinside : (gate.machine.holding.map (·.client)).Nodup := (List.nodup_append.mp hn).2.1
  cases gate with
  | writing writer queue =>
    by_cases hc : writer = client
    · subst hc
      simp [Gate.release, guard, Reference.guard_writing, Guard.opened, Guard.release, Guard.held?,
        Semaphore.release]
    · rw [Gate.release, if_neg hc, release_of_absent]
      rw [guard, Reference.guard_writing]
      simpa using Ne.symm hc
  | entering holding queue =>
    by_cases hm : client ∈ holding.map (·.client)
    · exact release_opened h hinside hm queue
    · rw [Gate.release, filter_of_not_mem Hold.client hm, release_of_absent hm]
  | blocked holding writer queue =>
    by_cases hm : client ∈ holding.map (·.client)
    · rw [Gate.release]
      split
      next he => exact Guard.release_blocked_last h.1 hinside hm (List.isEmpty_iff.mp he)
      next he =>
        exact Guard.release_blocked h.1 hinside hm fun hnil => he (List.isEmpty_iff.mpr hnil)
    · have hi : holding.isEmpty = false := List.isEmpty_eq_false_iff.mpr h.2
      rw [Gate.release, filter_of_not_mem Hold.client hm, hi, if_neg Bool.false_ne_true,
        release_of_absent]
      rw [guard, Reference.holding_guard]
      exact hm
  | cleared writer queue => exact release_of_absent List.not_mem_nil

/-- A request at the entry is withdrawn while the entry is with the first who waits: if it
is the first, the entry goes to the one behind it. -/
theorem cancel_opened (holding : List (Hold τ)) {queue : List (Ask τ)}
    (hn : (queue.map (·.client)).Nodup) (client : τ) :
    (Guard.opened holding queue).cancel client =
      Guard.opened holding (queue.filter fun ask => decide (ask.client ≠ client)) := by
  cases queue with
  | nil => rfl
  | cons first rest =>
    obtain ⟨hfirst, hrest⟩ := List.nodup_cons.mp hn
    by_cases hc : first.client = client
    · subst hc
      have hall : (first :: rest).filter (fun ask => decide (ask.client ≠ first.client)) = rest :=
        filter_client hfirst
      have hne := client_ne_of_nodup hn
      rw [hall]
      simpa [Guard.cancel, Guard.find?, Guard.forget, Guard.opened, Semaphore.release,
        Semaphore.cancel, Ask.waitingAt] using hne
    · have hkept : (first :: rest).filter (fun ask => decide (ask.client ≠ client)) =
          first :: rest.filter fun ask => decide (ask.client ≠ client) :=
        List.filter_cons_of_pos (decide_eq_true hc)
      have hfront : client ∉ [first.client] := by simpa using Ne.symm hc
      have hbehind := guard_entering_cons holding first rest
      have hleft := guard_entering_cons holding first
        (rest.filter fun ask => decide (ask.client ≠ client))
      rw [guard] at hbehind hleft
      rw [hkept, hbehind, hleft]
      exact Guard.cancel_behind hfront hfront hrest

/-- A withdrawal at the guard is the withdrawal in the way in which it stands. -/
theorem Sound.guard_cancel (h : gate.Sound) (hn : gate.machine.clients.Nodup) (client : τ) :
    gate.guard.cancel client = (gate.cancel client).guard := by
  have hwait : (gate.machine.queue.map (·.client)).Nodup := (List.nodup_append.mp hn).1
  cases gate with
  | writing writer queue =>
    rw [Gate.cancel, guard_writing, guard_writing]
    exact Guard.cancel_behind List.not_mem_nil List.not_mem_nil hwait
  | entering holding queue => exact cancel_opened holding hwait client
  | blocked holding writer queue =>
    rw [Gate.cancel]
    split
    next hc =>
      subst hc
      exact Guard.cancel_blocked_head h.1 h.2 (client_ne_of_nodup hwait)
    next hc =>
      have hfront : client ∉ [writer] := by simpa using Ne.symm hc
      rw [guard_blocked h.1, guard_blocked h.1]
      exact Guard.cancel_behind hfront List.not_mem_nil (List.nodup_cons.mp hwait).2
  | cleared writer queue =>
    rw [Gate.cancel]
    split
    next hc =>
      subst hc
      have hne := client_ne_of_nodup hwait
      simpa [guard, Guard.cancel, Guard.find?, Guard.forget, Guard.opened, Semaphore.release,
        Semaphore.cancel, Ask.waitingAt] using hne
    next hc =>
      have hfront : client ∉ [writer] := by simpa using Ne.symm hc
      rw [guard_cleared, guard_cleared]
      exact Guard.cancel_behind hfront List.not_mem_nil (List.nodup_cons.mp hwait).2

/-- The first who waits is looked at while the entry is with it. -/
theorem poll_opened {holding : List (Hold τ)} {first : Ask τ} {rest : List (Ask τ)}
    (hr : Reads holding) (hn : ((first :: rest).map (·.client)).Nodup) :
    ((Guard.opened holding (first :: rest)).poll first.client).1 =
      (pass holding first rest).guard := by
  have hne := client_ne_of_nodup hn
  obtain ⟨client, access⟩ := first
  rw [← Guard.guard_look ⟨_, [], []⟩]
  cases access with
  | read => rw [Guard.look_opened_read hne]; rfl
  | write =>
    cases holding with
    | nil => rw [Guard.look_opened_write_free hne]; rfl
    | cons hold others =>
      rw [Guard.look_opened_write_blocked hr (List.cons_ne_nil hold others) hne]; rfl

/-- A look at the guard is the look in the way in which it stands. -/
theorem Sound.guard_look (h : gate.Sound) (hn : gate.machine.clients.Nodup) (client : τ) :
    (gate.guard.poll client).1 = (gate.look client).guard := by
  have hwait : (gate.machine.queue.map (·.client)).Nodup := (List.nodup_append.mp hn).1
  cases gate with
  | writing writer queue =>
    rw [Gate.look, guard_writing]
    exact Guard.poll_behind List.not_mem_nil List.not_mem_nil rfl queue
  | entering holding queue =>
    cases queue with
    | nil => rfl
    | cons first rest =>
      rw [Gate.look]
      split
      next hc =>
        subst hc
        exact poll_opened h hwait
      next hc =>
        have hfront : client ∉ [first.client] := by simpa using Ne.symm hc
        rw [guard_entering_cons]
        exact Guard.poll_behind hfront hfront rfl rest
  | blocked holding writer queue =>
    -- Nobody can move next to readers with a writer in front, so a look changes nothing.
    have hs : Reference.Settled ⟨false, holding, ⟨writer, .write⟩ :: queue⟩ :=
      .blocked holding writer queue h.1 h.2
    have hstays := Guard.look_of_quiet (Reference.quiet_guard hs)
      (Reference.nodup_waiting_guard hn) [] [] client
    rw [Gate.look, guard, ← Guard.guard_look ⟨_, [], []⟩, hstays]
  | cleared writer queue =>
    rw [Gate.look]
    split
    next hc =>
      subst hc
      have hne := client_ne_of_nodup hwait
      rw [guard_writing]
      simpa [guard, Guard.behind, Guard.poll, Guard.find?, Guard.advance, Semaphore.poll,
        Guard.afterExclusion, Guard.forget, Ask.waitingAt] using hne
    next hc =>
      have hfront : client ∉ [writer] := by simpa using Ne.symm hc
      rw [guard_cleared]
      exact Guard.poll_behind hfront List.not_mem_nil rfl queue

/-- Looking until nothing changes lets in whom the machine lets in. -/
theorem Sound.settle_guard (h : gate.Sound) (hn : gate.machine.clients.Nodup) :
    gate.guard.settle.guard = gate.machine.settle.machine.guard := by
  cases gate with
  | writing writer queue =>
    have hs : Reference.Settled ⟨false, [⟨writer, .write⟩], queue⟩ :=
      .writing false writer queue fun he => nomatch he
    rw [guard, machine, Reference.settle_writer, Reference.settle_guard hs hn]
  | entering holding queue => exact congrArg Guard.Outcome.guard (Guard.settle_opened h hn)
  | blocked holding writer queue =>
    have hs : Reference.Settled ⟨false, holding, ⟨writer, .write⟩ :: queue⟩ :=
      .blocked holding writer queue h.1 h.2
    rw [guard, machine, Reference.settle_of_settled hs, Reference.settle_guard hs hn]
  | cleared writer queue =>
    have hwait := (List.nodup_append.mp hn).1
    rw [guard, machine, Guard.settle_of_assigned hwait, Reference.settle_cons_of_compatible rfl,
      List.nil_append, Ask.hold, Reference.settle_writer]

end Gate

/-! ## The guards that are met -/

namespace Guard

/-- A guard stands in one of the ways, and the clients around are distinct. -/
structure Stands (g : Guard τ) (gate : Gate τ) : Prop where
  /-- This is the guard. -/
  eq_guard : g = gate.guard
  /-- Next to a writer nobody is inside. -/
  sound : gate.Sound
  /-- Nobody is around twice. -/
  distinct : gate.machine.clients.Nodup

variable {g : Guard τ} {gate : Gate τ}

/-- A request adds the one who asks to the clients around. -/
theorem perm_clients_request (h : gate.Sound) (ask : Ask τ) :
    (gate.request ask).machine.clients.Perm (ask.client :: gate.machine.clients) := by
  refine (h.admits_request ask).perm_clients.trans ?_
  simp only [Reference.clients, List.map_append, List.map_cons, List.map_nil, List.append_assoc]
  exact List.perm_middle

/-- A guard at which somebody new has asked stands as it should. -/
theorem Stands.request (h : g.Stands gate) {client : τ} (hf : client ∉ gate.machine.clients)
    (access : Access) :
    (g.request client access).1.Stands (gate.request ⟨client, access⟩) where
  eq_guard := h.eq_guard ▸ h.sound.guard_request client access
  sound := h.sound.request _
  distinct := (perm_clients_request h.sound _).nodup_iff.mpr (List.nodup_cons.mpr ⟨hf, h.distinct⟩)

variable [DecidableEq τ]

/-- Nobody comes when somebody leaves. -/
theorem sublist_clients_release (gate : Gate τ) (client : τ) :
    (gate.release client).machine.clients.Sublist gate.machine.clients := by
  rw [gate.machine_release client]
  exact Reference.sublist_clients_filter_holding _ _

/-- Nobody comes when a request is withdrawn. -/
theorem sublist_clients_cancel (hn : gate.machine.clients.Nodup) (client : τ) :
    (gate.cancel client).machine.clients.Sublist gate.machine.clients := by
  rw [Gate.machine_cancel hn client]
  exact Reference.sublist_clients_filter_queue _ _

/-- A look changes nothing about who is around. -/
theorem perm_clients_look (h : gate.Sound) (client : τ) :
    (gate.look client).machine.clients.Perm gate.machine.clients :=
  (h.admits_look client).perm_clients

/-- A guard that somebody has left stands as it should. -/
theorem Stands.release (h : g.Stands gate) (client : τ) :
    (g.release client).Stands (gate.release client) where
  eq_guard := h.eq_guard ▸ h.sound.guard_release h.distinct client
  sound := h.sound.release client
  distinct := h.distinct.sublist (sublist_clients_release gate client)

/-- A guard at which a request was withdrawn stands as it should. -/
theorem Stands.cancel (h : g.Stands gate) (client : τ) :
    (g.cancel client).Stands (gate.cancel client) where
  eq_guard := h.eq_guard ▸ h.sound.guard_cancel h.distinct client
  sound := h.sound.cancel client
  distinct := h.distinct.sublist (sublist_clients_cancel h.distinct client)

/-- A guard at which a request was looked at stands as it should. -/
theorem Stands.look (h : g.Stands gate) (client : τ) :
    (g.poll client).1.Stands (gate.look client) where
  eq_guard := h.eq_guard ▸ h.sound.guard_look h.distinct client
  sound := h.sound.look client
  distinct := (perm_clients_look h.sound client).nodup_iff.mpr h.distinct

/-- When all requests have been looked at, the guard is the one that its settled machine stands
for. -/
theorem Stands.settle (h : g.Stands gate) :
    g.settle.guard = gate.machine.settle.machine.guard :=
  h.eq_guard ▸ h.sound.settle_guard h.distinct

/-- An action that does not close a guard leads it from one way to another. -/
theorem Stands.act (h : g.Stands gate) {action : Action τ} (hc : action ≠ .event .close)
    (hf : ∀ client, action.asker? = some client → client ∉ gate.machine.clients) :
    (g.act action).Stands (gate.act action) := by
  cases action with
  | look client => exact h.look client
  | event event =>
    cases event with
    | request client access => exact h.request (hf client rfl) access
    | release client => exact h.release client
    | cancel client => exact h.cancel client
    | close => exact absurd rfl hc

/-- Nobody comes but by a request. -/
theorem Stands.mem_clients_act (h : g.Stands gate) {action : Action τ} {client : τ}
    (hm : client ∈ (gate.act action).machine.clients) :
    client ∈ gate.machine.clients ∨ action.asker? = some client := by
  cases action with
  | look other => exact .inl ((perm_clients_look h.sound other).subset hm)
  | event event =>
    cases event with
    | request other access =>
      rcases List.mem_cons.mp ((perm_clients_request h.sound _).subset hm) with rfl | hm
      · exact .inr rfl
      · exact .inl hm
    | release other => exact .inl ((sublist_clients_release gate other).subset hm)
    | cancel other => exact .inl ((sublist_clients_cancel h.distinct other).subset hm)
    | close => exact .inl hm

/-- Whatever is done, a new guard is closed or stands in one of the ways, with nobody
around who has not asked. -/
theorem exists_stands {actions : List (Action τ)}
    (hd : (actions.filterMap Action.asker?).Nodup) :
    (new.run actions).Closes true ∨ ∃ gate : Gate τ, (new.run actions).Stands gate ∧
      ∀ client ∈ gate.machine.clients, client ∈ actions.filterMap Action.asker? := by
  induction actions using List.reverseRecOn with
  | nil =>
    have hs : (new : Guard τ).Stands (.entering [] []) :=
      ⟨rfl, fun hold hm => absurd hm List.not_mem_nil, List.nodup_nil⟩
    exact .inr ⟨_, hs, fun client hm => nomatch hm⟩
  | append_singleton front action ih =>
    have hfront := hd.sublist ((List.sublist_append_left front [action]).filterMap Action.asker?)
    rw [run_append]
    rcases ih hfront with hc | ⟨gate, hs, hin⟩
    · exact .inl (closes_act hc action)
    · have hfresh : ∀ client, action.asker? = some client → client ∉ gate.machine.clients := by
        intro client he hm
        rw [List.filterMap_append] at hd
        have hlast : client ∈ [action].filterMap Action.asker? := by simp [he]
        exact (List.nodup_append.mp hd).2.2 client (hin client hm) client hlast rfl
      by_cases hc : action = .event .close
      · subst hc
        exact .inl (closes_close _)
      · refine .inr ⟨gate.act action, hs.act hc hfresh, fun client hm => ?_⟩
        rw [List.filterMap_append, List.mem_append]
        rcases hs.mem_clients_act hm with hold | he
        · exact .inl (hin client hold)
        · exact .inr (by simp [he])

end Guard

end EmbeddedSql.Lock
