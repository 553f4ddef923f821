import EmbeddedSql.Lock.Guard
import Mathlib.Data.List.Basic

/-!
# A guard with one queue

What a guard is there for can be said with those who are inside and one queue:
after every event requests are admitted from the head of the queue as long as
the head may be inside together with those who are. Once closed, the machine
fails all requests that wait and all that come, and whoever is inside stays. Its
states between two events have one of three shapes, and every event leads from
a shape to a shape.
-/

namespace EmbeddedSql.Lock

variable {τ : Type}

/-- A request in the queue. -/
structure Ask (τ : Type) where
  /-- Who asks. -/
  client : τ
  /-- For what. -/
  access : Access
  deriving DecidableEq, Repr

/-- The access that is given on a request. -/
def Ask.hold (ask : Ask τ) : Hold τ :=
  ⟨ask.client, ask.access⟩

/-- A request that waits at a semaphore, without the place where it waits. -/
def Request.ask (request : Request τ) : Ask τ :=
  ⟨request.client, request.access⟩

/-- Whether access can be given next to those who are inside: to a reader if no
writer is, and to a writer if nobody is. -/
def Access.compatible (access : Access) (holding : List (Hold τ)) : Bool :=
  match access with
  | .read => holding.all fun hold => hold.access = .read
  | .write => holding.isEmpty

/-- A machine that lets clients in. -/
structure Reference (τ : Type) where
  /-- Whether the machine is closed. -/
  closed : Bool
  /-- Those who are inside, in the order of their admission. -/
  holding : List (Hold τ)
  /-- The requests that wait, in the order of their arrival. -/
  queue : List (Ask τ)
  deriving DecidableEq, Repr

namespace Reference

/-- What an event has brought. -/
structure Outcome (τ : Type) where
  /-- The machine afterwards. -/
  machine : Reference τ
  /-- The clients who were admitted. -/
  granted : List τ
  /-- The clients whose requests failed. -/
  failed : List τ
  deriving DecidableEq, Repr

/-- A machine with nobody around. -/
def new : Reference τ :=
  ⟨false, [], []⟩

/-- The requests at the head of a queue that are admitted one after another. -/
def admitted (holding : List (Hold τ)) : List (Ask τ) → List (Ask τ)
  | [] => []
  | ask :: rest =>
    if ask.access.compatible holding then ask :: admitted (holding ++ [ask.hold]) rest else []

/-- Admits requests from the head of the queue as long as this is possible. -/
def settle (r : Reference τ) : Outcome τ :=
  let taken := admitted r.holding r.queue
  ⟨⟨r.closed, r.holding ++ taken.map Ask.hold, r.queue.drop taken.length⟩,
    taken.map (·.client), []⟩

variable [DecidableEq τ]

/-- Lets an event happen and then admits whom it can. -/
def handle (r : Reference τ) : Event τ → Outcome τ
  | .request client access =>
    if r.closed then ⟨r, [], [client]⟩
    else settle { r with queue := r.queue ++ [⟨client, access⟩] }
  | .release client =>
    settle { r with holding := r.holding.filter fun hold => hold.client ≠ client }
  | .cancel client =>
    settle { r with queue := r.queue.filter fun ask => ask.client ≠ client }
  | .close => ⟨⟨true, r.holding, []⟩, [], r.queue.map (·.client)⟩

end Reference

/-- A name that is in front of distinct ones is none of them. -/
theorem client_ne_of_nodup {client : τ} {queue : List (Ask τ)}
    (h : (client :: queue.map (·.client)).Nodup) : ∀ ask ∈ queue, ask.client ≠ client := by
  intro ask hm he
  have hmem : client ∈ queue.map (·.client) := he ▸ List.mem_map_of_mem hm
  exact (List.nodup_cons.mp h).1 hmem

/-- Without the entries of a client who has none a list is the same. -/
theorem filter_of_not_mem {α : Type} [DecidableEq τ] (key : α → τ) {list : List α} {client : τ}
    (h : client ∉ list.map key) :
    list.filter (fun entry => decide (key entry ≠ client)) = list := by
  rw [List.filter_eq_self]
  exact fun entry hm => decide_eq_true fun he => h (he ▸ List.mem_map_of_mem hm)

/-! ## Admission -/

/-- Everyone inside reads. -/
def Reads (holding : List (Hold τ)) : Prop :=
  ∀ hold ∈ holding, hold.access = .read

/-- Where everyone inside reads, one more reader leaves it so. -/
theorem reads_append {holding : List (Hold τ)} (h : Reads holding) {hold : Hold τ}
    (hr : hold.access = .read) : Reads (holding ++ [hold]) := by
  intro other hm
  rcases List.mem_append.mp hm with hm | hm
  · exact h other hm
  · rw [List.mem_singleton.mp hm]
    exact hr

/-- Where everyone inside reads, so does each of some of them. -/
theorem reads_filter {holding : List (Hold τ)} (h : Reads holding) (p : Hold τ → Bool) :
    Reads (holding.filter p) :=
  fun hold hm => h hold (List.mem_of_mem_filter hm)

/-- A reader may join readers. -/
theorem compatible_read {holding : List (Hold τ)} (h : Reads holding) :
    Access.compatible .read holding = true := by
  have hall : ∀ hold ∈ holding, (decide (hold.access = .read)) = true :=
    fun hold hm => decide_eq_true (h hold hm)
  exact List.all_eq_true.mpr hall

/-- Nobody may join a writer. -/
theorem compatible_writer (access : Access) (client : τ) :
    access.compatible [⟨client, .write⟩] = false := by
  cases access with
  | read => rfl
  | write => rfl

/-- A writer joins nobody. -/
theorem compatible_write {holding : List (Hold τ)} (h : holding ≠ []) :
    Access.compatible .write holding = false := by
  cases holding with
  | nil => exact absurd rfl h
  | cons hold rest => rfl

namespace Reference

/-- A head that is admitted comes first, and then the others are admitted. -/
theorem settle_cons_of_compatible {closed : Bool} {holding : List (Hold τ)} {ask : Ask τ}
    {rest : List (Ask τ)} (h : ask.access.compatible holding = true) :
    settle ⟨closed, holding, ask :: rest⟩ =
      ⟨(settle ⟨closed, holding ++ [ask.hold], rest⟩).machine,
        ask.client :: (settle ⟨closed, holding ++ [ask.hold], rest⟩).granted, []⟩ := by
  simp [settle, admitted, h]

/-- A head that is not admitted keeps all others waiting. -/
theorem settle_cons_of_not_compatible {closed : Bool} {holding : List (Hold τ)} {ask : Ask τ}
    {rest : List (Ask τ)} (h : ask.access.compatible holding = false) :
    settle ⟨closed, holding, ask :: rest⟩ = ⟨⟨closed, holding, ask :: rest⟩, [], []⟩ := by
  simp [settle, admitted, h]

/-- A machine with an empty queue admits nobody. -/
theorem settle_nil (closed : Bool) (holding : List (Hold τ)) :
    settle ⟨closed, holding, []⟩ = ⟨⟨closed, holding, []⟩, [], []⟩ := by
  simp [settle, admitted]

/-- Nobody is admitted next to a writer. -/
theorem settle_writer (closed : Bool) (client : τ) (queue : List (Ask τ)) :
    settle ⟨closed, [⟨client, .write⟩], queue⟩ =
      ⟨⟨closed, [⟨client, .write⟩], queue⟩, [], []⟩ := by
  cases queue with
  | nil => exact settle_nil _ _
  | cons ask rest => exact settle_cons_of_not_compatible (compatible_writer ask.access client)

/-- Those who are admitted and those who go on waiting make up the queue, in its
order. -/
theorem granted_append_queue (r : Reference τ) :
    (settle r).granted ++ (settle r).machine.queue.map (·.client) =
      r.queue.map (·.client) := by
  obtain ⟨closed, holding, queue⟩ := r
  induction queue generalizing holding with
  | nil => rw [settle_nil]; rfl
  | cons ask rest ih =>
    cases hc : ask.access.compatible holding with
    | true =>
      have hi := ih (holding ++ [ask.hold])
      rw [settle_cons_of_compatible hc, List.map_cons, List.cons_append, hi]
    | false => rw [settle_cons_of_not_compatible hc, List.nil_append]

/-- Nobody fails by admission. -/
theorem failed_settle (r : Reference τ) : (settle r).failed = [] := rfl

/-! ## The states between two events -/

/-- The clients around: those who wait and those who are inside. -/
def clients (r : Reference τ) : List τ :=
  r.queue.map (·.client) ++ r.holding.map (·.client)

/-- The shapes in which nobody else can be admitted. -/
inductive Settled : Reference τ → Prop where
  /-- A writer is inside, and everyone else waits. -/
  | writing (closed : Bool) (client : τ) (queue : List (Ask τ))
    (emptied : closed = true → queue = []) :
    Settled ⟨closed, [⟨client, .write⟩], queue⟩
  /-- Readers are inside or nobody is, and nobody waits. -/
  | reading (closed : Bool) (holding : List (Hold τ)) (reads : Reads holding) :
    Settled ⟨closed, holding, []⟩
  /-- Readers are inside, and a writer is the first who waits. -/
  | blocked (holding : List (Hold τ)) (client : τ) (queue : List (Ask τ))
    (reads : Reads holding) (inside : holding ≠ []) :
    Settled ⟨false, holding, ⟨client, .write⟩ :: queue⟩

/-- Admission leads to one of the shapes if nobody but readers is inside. -/
theorem settled_settle {closed : Bool} {holding : List (Hold τ)} {queue : List (Ask τ)}
    (hc : closed = true → queue = []) (hr : Reads holding) :
    Settled (settle ⟨closed, holding, queue⟩).machine := by
  induction queue generalizing holding with
  | nil =>
    rw [settle_nil]
    exact .reading closed holding hr
  | cons ask rest ih =>
    obtain ⟨client, access⟩ := ask
    have hopen : closed = false := by
      cases closed with
      | false => rfl
      | true => cases hc rfl
    subst hopen
    cases access with
    | read =>
      have hi := ih (fun he => nomatch he) (@reads_append _ _ hr ⟨client, .read⟩ rfl)
      rwa [settle_cons_of_compatible (compatible_read hr)]
    | write =>
      by_cases hn : holding = []
      · subst hn
        rw [settle_cons_of_compatible rfl, List.nil_append, Ask.hold, settle_writer]
        exact .writing false client rest fun he => nomatch he
      · rw [settle_cons_of_not_compatible (compatible_write hn)]
        exact .blocked holding client rest hr hn

/-- In any of the shapes, admission admits nobody. -/
theorem settle_of_settled {r : Reference τ} (h : Settled r) : settle r = ⟨r, [], []⟩ := by
  cases h with
  | writing closed client queue _ => exact settle_writer closed client queue
  | reading closed holding _ => exact settle_nil closed holding
  | blocked holding client queue _ hn => exact settle_cons_of_not_compatible (compatible_write hn)

/-- In any of the shapes, a writer inside is alone. -/
theorem Settled.alone {r : Reference τ} (h : Settled r) :
    ∀ hold ∈ r.holding, hold.access = .write → r.holding = [hold] := by
  intro hold hm hw
  cases h with
  | writing closed client queue _ => rw [List.mem_singleton.mp hm]
  | reading closed holding hr => rw [hr hold hm] at hw; cases hw
  | blocked holding client queue hr _ => rw [hr hold hm] at hw; cases hw

/-- In any of the shapes, the first who waits has to. -/
theorem Settled.head_not_compatible {r : Reference τ} (h : Settled r) {ask : Ask τ}
    {rest : List (Ask τ)} (hq : r.queue = ask :: rest) :
    ask.access.compatible r.holding = false := by
  cases h with
  | writing closed client queue _ => exact compatible_writer ask.access client
  | reading closed holding _ => cases hq
  | blocked holding client queue _ hn =>
    cases hq
    exact compatible_write hn

/-- In any of the shapes, nobody waits if the machine is closed. -/
theorem Settled.queue_of_closed {r : Reference τ} (h : Settled r) (hc : r.closed = true) :
    r.queue = [] := by
  cases h with
  | writing closed client queue ho => exact ho hc
  | reading closed holding _ => rfl
  | blocked holding client queue _ _ => cases hc

/-- A client who is admitted was around before. -/
theorem perm_admit_clients (closed : Bool) (holding : List (Hold τ)) (ask : Ask τ)
    (rest : List (Ask τ)) :
    (clients ⟨closed, holding ++ [ask.hold], rest⟩).Perm
      (clients ⟨closed, holding, ask :: rest⟩) := by
  simp only [clients, List.map_append, List.map_cons, List.map_nil, List.cons_append]
  rw [← List.append_assoc]
  exact List.perm_append_singleton _ _

/-- Admission keeps the clients around. -/
theorem perm_clients_settle (r : Reference τ) : (settle r).machine.clients.Perm r.clients := by
  obtain ⟨closed, holding, queue⟩ := r
  induction queue generalizing holding with
  | nil => rw [settle_nil]
  | cons ask rest ih =>
    cases hc : ask.access.compatible holding with
    | true =>
      rw [settle_cons_of_compatible hc]
      exact (ih (holding ++ [ask.hold])).trans (perm_admit_clients closed holding ask rest)
    | false => rw [settle_cons_of_not_compatible hc]

variable [DecidableEq τ]

/-- Every event leads from a shape to a shape. -/
theorem settled_handle {r : Reference τ} (h : Settled r) (event : Event τ) :
    Settled (r.handle event).machine := by
  cases event with
  | request client access =>
    rw [handle]
    split
    · exact h
    next hc =>
      -- A closed machine takes no request, so nothing is asked of the longer queue.
      have hopen : r.closed = true → r.queue ++ [⟨client, access⟩] = [] := fun he => absurd he hc
      cases h with
      | writing closed writer queue _ =>
        rw [settle_writer]
        exact .writing closed writer _ hopen
      | reading closed holding hr => exact settled_settle hopen hr
      | blocked holding writer queue hr _ => exact settled_settle hopen hr
  | release client =>
    rw [handle]
    cases h with
    | writing closed writer queue ho =>
      by_cases he : writer = client
      · simp only [he, List.filter_cons, ne_eq, not_true, decide_false, List.filter_nil]
        exact settled_settle ho fun hold hm => nomatch hm
      · simp only [List.filter_cons, ne_eq, he, not_false_eq_true, decide_true, if_true,
          List.filter_nil]
        rw [settle_writer]
        exact .writing closed writer queue ho
    | reading closed holding hr => exact settled_settle (fun _ => rfl) (reads_filter hr _)
    | blocked holding writer queue hr _ =>
      exact settled_settle (fun he => nomatch he) (reads_filter hr _)
  | cancel client =>
    rw [handle]
    cases h with
    | writing closed writer queue ho =>
      rw [settle_writer]
      refine .writing closed writer _ fun hc => ?_
      rw [ho hc, List.filter_nil]
    | reading closed holding hr => exact settled_settle (fun _ => rfl) hr
    | blocked holding writer queue hr _ => exact settled_settle (fun he => nomatch he) hr
  | close =>
    cases h with
    | writing closed writer queue _ => exact .writing true writer [] fun _ => rfl
    | reading closed holding hr => exact .reading true holding hr
    | blocked holding writer queue hr _ => exact .reading true holding hr

end Reference

/-- The client of a request that an event is. -/
def Event.asker? : Event τ → Option τ
  | .request client _ => some client
  | _ => none

namespace Reference

/-- Clients who go leave the others around. -/
theorem sublist_clients_filter_holding (r : Reference τ) (p : Hold τ → Bool) :
    (clients { r with holding := r.holding.filter p }).Sublist r.clients :=
  ((List.filter_sublist).map _).append_left _

/-- Clients who withdraw leave the others around. -/
theorem sublist_clients_filter_queue (r : Reference τ) (p : Ask τ → Bool) :
    (clients { r with queue := r.queue.filter p }).Sublist r.clients :=
  ((List.filter_sublist).map _).append_right _

/-- A request bears a name that nobody around has. -/
def Fresh (r : Reference τ) (event : Event τ) : Prop :=
  ∀ client, event.asker? = some client → client ∉ r.clients

/-- A request bears a new name if nobody is around who has not asked before. -/
theorem fresh_of_askers {r : Reference τ} {front : List (Event τ)} {event : Event τ}
    (hd : ((front ++ [event]).filterMap Event.asker?).Nodup)
    (hin : ∀ client ∈ r.clients, client ∈ front.filterMap Event.asker?) : r.Fresh event := by
  intro client he hm
  rw [List.filterMap_append] at hd
  have hlast : client ∈ [event].filterMap Event.asker? := by simp [he]
  exact (List.nodup_append.mp hd).2.2 client (hin client hm) client hlast rfl

variable [DecidableEq τ]

/-- The clients around stay distinct if a request bears a new name. -/
theorem nodup_clients_handle {r : Reference τ} (h : r.clients.Nodup) {event : Event τ}
    (hf : r.Fresh event) : (r.handle event).machine.clients.Nodup := by
  cases event with
  | request client access =>
    rw [handle]
    split
    · exact h
    · have hn : client ∉ r.clients := hf client rfl
      rw [(perm_clients_settle _).nodup_iff]
      have hp : (client :: r.clients).Nodup := List.nodup_cons.mpr ⟨hn, h⟩
      have he : clients { r with queue := r.queue ++ [⟨client, access⟩] } =
          r.queue.map (·.client) ++ client :: r.holding.map (·.client) := by
        simp [clients]
      rw [he]
      exact (List.perm_middle.nodup_iff).mpr hp
  | release client =>
    rw [handle]
    rw [(perm_clients_settle _).nodup_iff]
    exact h.sublist (sublist_clients_filter_holding r _)
  | cancel client =>
    rw [handle]
    rw [(perm_clients_settle _).nodup_iff]
    exact h.sublist (sublist_clients_filter_queue r _)
  | close => exact h.sublist (List.sublist_append_right _ _)

/-- Whoever is around after an event was around before or is the one who asks. -/
theorem mem_clients_handle {r : Reference τ} {event : Event τ} {client : τ}
    (h : client ∈ (r.handle event).machine.clients) :
    client ∈ r.clients ∨ event.asker? = some client := by
  cases event with
  | request asker access =>
    rw [handle] at h
    split at h
    · exact .inl h
    · have hm := (perm_clients_settle _).mem_iff.mp h
      simp only [clients, List.map_append, List.map_cons, List.map_nil, List.mem_append,
        List.mem_singleton] at hm
      rcases hm with (hm | hm) | hm
      · exact .inl (List.mem_append_left _ hm)
      · exact .inr (congrArg some hm.symm)
      · exact .inl (List.mem_append_right _ hm)
  | release other =>
    have hm := (perm_clients_settle _).mem_iff.mp h
    exact .inl ((sublist_clients_filter_holding r _).subset hm)
  | cancel other =>
    have hm := (perm_clients_settle _).mem_iff.mp h
    exact .inl ((sublist_clients_filter_queue r _).subset hm)
  | close => exact .inl (List.mem_append_right _ h)

end Reference

end EmbeddedSql.Lock
