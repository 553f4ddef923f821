import EmbeddedSql.Proofs.Lock.Events
import Mathlib.Data.List.Induction

/-!
# Two semaphores do what one queue does

Whatever happens at a guard, nothing that is seen of it tells it apart from the
machine with one queue: after every event the same requests were granted and
failed, the same clients are inside, the same requests wait in the same order,
and as many readers are counted. So a writer is always alone inside, requests
are settled in the order of their arrival, and nobody is left waiting who could
be admitted.
-/

namespace EmbeddedSql.Lock

variable {τ : Type} [DecidableEq τ]

/-- What is seen after an event. -/
structure Report (τ : Type) where
  /-- Whose requests the event has granted, in order. -/
  granted : List τ
  /-- Whose requests the event has made fail, in order. -/
  failed : List τ
  /-- Who is inside. -/
  holding : List (Hold τ)
  /-- Which requests wait, in the order of their arrival. -/
  waiting : List (Ask τ)
  /-- How many readers are counted. -/
  readers : Nat
  deriving DecidableEq, Repr

/-- What is seen of a guard after each of some events. -/
def Guard.reports (g : Guard τ) : List (Event τ) → List (Report τ)
  | [] => []
  | event :: rest =>
    let outcome := g.handle event
    ⟨outcome.granted, outcome.failed, outcome.guard.holding,
      outcome.guard.waiting.map (·.ask), outcome.guard.activeReaders⟩ ::
      outcome.guard.reports rest

/-- What is seen of the machine with one queue after each of some events. -/
def Reference.reports (r : Reference τ) : List (Event τ) → List (Report τ)
  | [] => []
  | event :: rest =>
    let outcome := r.handle event
    ⟨outcome.granted, outcome.failed, outcome.machine.holding, outcome.machine.queue,
      outcome.machine.holding.countP fun hold => hold.access = .read⟩ ::
      outcome.machine.reports rest

/-- The guard after some events. -/
def Guard.after (g : Guard τ) (events : List (Event τ)) : Guard τ :=
  events.foldl (fun g event => (g.handle event).guard) g

/-- The clients in the order of their requests, with the one who asks and without
the one who withdraws. -/
def Event.arrivals (event : Event τ) (clients : List τ) : List τ :=
  match event with
  | .request client _ => clients ++ [client]
  | .cancel client => clients.filter fun other => other ≠ client
  | _ => clients

namespace Guard

/-- Nothing is left to be done at a guard. -/
structure AtRest (g : Guard τ) : Prop where
  /-- A writer who is inside is alone. -/
  alone : ∀ hold ∈ g.holding, hold.access = .write → g.holding = [hold]
  /-- The first who waits cannot be inside together with those who are. -/
  blocked : ∀ request rest, g.waiting = request :: rest →
    request.access.compatible g.holding = false
  /-- No request can move. -/
  quiet : g.Quiet

/-- An event settles requests in the order of their arrival: those that it grants
or makes fail are in front of those that go on waiting. -/
def InTurn (g : Guard τ) (event : Event τ) : Prop :=
  (g.handle event).granted ++ (g.handle event).failed ++
    (g.handle event).guard.waiting.map (·.client) =
    event.arrivals (g.waiting.map (·.client))

/-- A guard does on an event what the machine does that it stands for. -/
theorem handle_guard {r : Reference τ} (h : r.Settled) (hn : r.clients.Nodup) {event : Event τ}
    (hf : r.Fresh event) :
    r.guard.handle event =
      ⟨(r.handle event).machine.guard, (r.handle event).granted, (r.handle event).failed⟩ := by
  cases event with
  | request client access =>
    have hs := Reference.settled_handle h (.request client access)
    have hd := Reference.nodup_clients_handle hn hf
    cases hc : r.closed with
    | true =>
      have hg : r.guard.entry.closed = true := by rw [Reference.closed_entry_guard, hc]
      simp only [handle, noteRequest_of_closed hg, Reference.settle_guard h hn, Reference.handle,
        hc, if_true, List.append_nil]
    | false =>
      simp only [Reference.handle, hc, Bool.false_eq_true, if_false] at hs hd ⊢
      simp only [handle, noteRequest_guard h hc, hc, Reference.settle_guard hs hd, List.append_nil,
        Reference.failed_settle]
  | release client =>
    simp only [handle, settle_release h hn, List.nil_append]
    rfl
  | cancel client =>
    simp only [handle, settle_cancel h hn, List.nil_append]
    rfl
  | close =>
    simp only [handle, settle_close h hn, List.nil_append]
    rfl

/-- A guard does on any events what the machine does that it stands for. -/
theorem reports_guard {r : Reference τ} (h : r.Settled) (hn : r.clients.Nodup)
    {events : List (Event τ)} (hd : (events.filterMap Event.asker?).Nodup)
    (hf : ∀ client ∈ events.filterMap Event.asker?, client ∉ r.clients) :
    r.guard.reports events = r.reports events := by
  induction events generalizing r with
  | nil => rfl
  | cons event rest ih =>
    have hfresh : r.Fresh event := by
      intro client he
      refine hf client ?_
      rw [List.filterMap_cons_some he]
      exact List.mem_cons_self ..
    have hs := Reference.settled_handle h event
    have hc := Reference.nodup_clients_handle hn hfresh
    have hrest : (rest.filterMap Event.asker?).Nodup :=
      hd.sublist ((List.sublist_cons_self event rest).filterMap _)
    have hnew : ∀ client ∈ rest.filterMap Event.asker?,
        client ∉ (r.handle event).machine.clients := by
      intro client hm hin
      rcases Reference.mem_clients_handle hin with hold | he
      · have hsub := (List.sublist_cons_self event rest).filterMap Event.asker?
        exact hf client (hsub.subset hm) hold
      · rw [List.filterMap_cons_some he] at hd
        exact (List.nodup_cons.mp hd).1 hm
    have hi := ih hs hc hrest hnew
    rw [reports, Reference.reports]
    simp only [handle_guard h hn hfresh, Reference.holding_guard, Reference.ask_waiting_guard,
      activeReaders, Reference.readers_guard hs, hi]

/-- The guard after one event more is the guard that handles it. -/
theorem after_append_singleton (g : Guard τ) (front : List (Event τ)) (event : Event τ) :
    g.after (front ++ [event]) = ((g.after front).handle event).guard := by
  rw [after, List.foldl_append]
  rfl

/-- After any events, a new guard stands as a machine in one of its shapes makes
it, with nobody around who has not asked. -/
theorem exists_machine {events : List (Event τ)} (hd : (events.filterMap Event.asker?).Nodup) :
    ∃ r : Reference τ, Guard.new.after events = r.guard ∧ r.Settled ∧ r.clients.Nodup ∧
      ∀ client ∈ r.clients, client ∈ events.filterMap Event.asker? := by
  induction events using List.reverseRecOn with
  | nil =>
    have hs : (Reference.new : Reference τ).Settled := .reading false [] fun hold hm => nomatch hm
    exact ⟨.new, rfl, hs, List.nodup_nil, fun client hm => nomatch hm⟩
  | append_singleton front event ih =>
    have hfront := hd.sublist ((List.sublist_append_left front [event]).filterMap Event.asker?)
    obtain ⟨r, hg, hs, hc, hin⟩ := ih hfront
    have hfresh := Reference.fresh_of_askers hd hin
    refine ⟨(r.handle event).machine, ?_, Reference.settled_handle hs event,
      Reference.nodup_clients_handle hc hfresh, ?_⟩
    · rw [after_append_singleton, hg, handle_guard hs hc hfresh]
    · intro client hm
      rw [List.filterMap_append, List.mem_append]
      rcases Reference.mem_clients_handle hm with hold | he
      · exact .inl (hin client hold)
      · exact .inr (by simp [he])

/-- A guard that stands as a machine in one of its shapes makes it is at rest. -/
theorem atRest_guard {r : Reference τ} (h : r.Settled) : r.guard.AtRest where
  alone := by
    rw [Reference.holding_guard]
    exact h.alone
  blocked request rest hw := by
    have hq : r.queue = request.ask :: rest.map (·.ask) := by
      rw [← Reference.ask_waiting_guard r, hw, List.map_cons]
    rw [Reference.holding_guard]
    exact h.head_not_compatible hq
  quiet := Reference.quiet_guard h

/-- The machine settles requests in the order of their arrival. -/
theorem inTurn_machine {r : Reference τ} (h : r.Settled) (event : Event τ) :
    (r.handle event).granted ++ (r.handle event).failed ++
      (r.handle event).machine.queue.map (·.client) =
      event.arrivals (r.queue.map (·.client)) := by
  cases event with
  | request client access =>
    rw [Reference.handle]
    split
    next hc =>
      rw [h.queue_of_closed hc]
      rfl
    next =>
      rw [Reference.failed_settle, List.append_nil, Reference.granted_append_queue]
      simp [Event.arrivals]
  | release client =>
    rw [Reference.handle, Reference.failed_settle, List.append_nil,
      Reference.granted_append_queue]
    rfl
  | cancel client =>
    rw [Reference.handle, Reference.failed_settle, List.append_nil,
      Reference.granted_append_queue]
    simp only [Event.arrivals, List.filter_map]
    rfl
  | close =>
    simp [Reference.handle, Event.arrivals]

/-- The guard of two semaphores cannot be told apart from the machine with one
queue, whatever happens at it. Whenever it is at rest a writer inside is alone
and nobody waits who could be admitted, and each event settles requests in the
order of their arrival. Each request bears a name of its own. -/
theorem reports_new {events : List (Event τ)} (hd : (events.filterMap Event.asker?).Nodup) :
    Guard.new.reports events = Reference.new.reports events ∧
      (∀ front, front <+: events → (Guard.new.after front).AtRest) ∧
      (∀ front event, front ++ [event] <+: events → (Guard.new.after front).InTurn event) := by
  refine ⟨?_, ?_, ?_⟩
  · have hs : (Reference.new : Reference τ).Settled := .reading false [] fun hold hm => nomatch hm
    have hall := reports_guard hs List.nodup_nil hd fun client _ hm => nomatch hm
    rwa [Reference.guard_new] at hall
  · intro front hp
    have hfront := hd.sublist (hp.sublist.filterMap Event.asker?)
    obtain ⟨r, hg, hs, _, _⟩ := exists_machine hfront
    rw [hg]
    exact atRest_guard hs
  · intro front event hp
    have hboth := hd.sublist (hp.sublist.filterMap Event.asker?)
    have hfront := hboth.sublist ((List.sublist_append_left front [event]).filterMap Event.asker?)
    obtain ⟨r, hg, hs, hc, hin⟩ := exists_machine hfront
    have hfresh := Reference.fresh_of_askers hboth hin
    rw [hg, InTurn, handle_guard hs hc hfresh, Reference.client_waiting_guard,
      Reference.client_waiting_guard]
    exact inTurn_machine hs event

/-- A writer withdraws in front of a reader, the readers leave in favour of the
next writer, and a request comes after the guard was closed. -/
theorem reports_new_of_withdrawal :
    let events : List (Event Nat) :=
      [.request 1 .read, .request 2 .write, .request 3 .read, .request 4 .write, .cancel 2,
        .release 1, .release 3, .close, .request 5 .read]
    (Guard.new.reports events).map (·.granted) = [[1], [], [], [], [3], [], [4], [], []] ∧
      Guard.new.reports events = Reference.new.reports events ∧
      (∀ front, front <+: events → (Guard.new.after front).AtRest) ∧
      (∀ front event, front ++ [event] <+: events → (Guard.new.after front).InTurn event) :=
  ⟨by decide, reports_new (by decide)⟩

end Guard

end EmbeddedSql.Lock
