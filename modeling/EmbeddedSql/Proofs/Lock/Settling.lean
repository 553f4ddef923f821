import EmbeddedSql.Proofs.Lock.Reference
import Mathlib.Data.List.Nodup

/-!
# How a guard comes to rest

Between two events a guard is in a state that the machine with one queue
determines: who waits at which semaphore, and which permits are free. In such a
state no request can move. When the entry has been given back, looking at the
requests in the order of their arrival admits one after another whom the machine
admits, and ends in such a state again.
-/

namespace EmbeddedSql.Lock

variable {τ : Type}

/-- A request of the queue as it waits at a semaphore. -/
def Ask.waitingAt (ask : Ask τ) (stage : Stage) : Request τ :=
  ⟨ask.client, ask.access, stage⟩

/-- The guard that a machine in one of its shapes stands for. While a writer is
inside, both permits are gone and everyone waits at the entry. While readers
are inside and a writer waits, this one has passed the entry and everyone else
waits there. -/
def Reference.guard (r : Reference τ) : Guard τ :=
  if r.holding.any fun hold => hold.access = .write then
    ⟨⟨0, r.queue.map (·.client), [], r.closed⟩, ⟨0, [], [], r.closed⟩, 0,
      r.queue.map (·.waitingAt .entry), r.holding⟩
  else
    match r.queue with
    | [] =>
      ⟨⟨1, [], [], r.closed⟩, ⟨if r.holding.isEmpty then 1 else 0, [], [], r.closed⟩,
        r.holding.length, [], r.holding⟩
    | ask :: rest =>
      ⟨⟨0, rest.map (·.client), [], r.closed⟩, ⟨0, [ask.client], [], r.closed⟩,
        r.holding.length, ask.waitingAt .exclusion :: rest.map (·.waitingAt .entry), r.holding⟩

namespace Reference

/-- While a writer is inside, both permits are gone and everyone waits at the entry. -/
theorem guard_writing (closed : Bool) (client : τ) (queue : List (Ask τ)) :
    guard ⟨closed, [⟨client, .write⟩], queue⟩ =
      ⟨⟨0, queue.map (·.client), [], closed⟩, ⟨0, [], [], closed⟩, 0,
        queue.map (·.waitingAt .entry), [⟨client, .write⟩]⟩ := by
  simp [guard]

/-- Where everyone inside reads, nobody writes. -/
theorem any_write_of_reads {holding : List (Hold τ)} (h : Reads holding) :
    (holding.any fun hold => decide (hold.access = .write)) = false := by
  rw [List.any_eq_false]
  intro hold hm
  simp [h hold hm]

/-- While readers or nobody are inside and nobody waits, the entry is free, and the exclusion
is if nobody is inside. -/
theorem guard_reading (closed : Bool) {holding : List (Hold τ)} (h : Reads holding) :
    guard ⟨closed, holding, []⟩ =
      ⟨⟨1, [], [], closed⟩, ⟨if holding.isEmpty then 1 else 0, [], [], closed⟩,
        holding.length, [], holding⟩ := by
  simp [guard, any_write_of_reads h]

/-- While readers are inside and a writer is the first who waits, it waits at the exclusion and
everyone else at the entry. -/
theorem guard_blocked {holding : List (Hold τ)} (h : Reads holding) (client : τ)
    (queue : List (Ask τ)) :
    guard ⟨false, holding, ⟨client, .write⟩ :: queue⟩ =
      ⟨⟨0, queue.map (·.client), [], false⟩, ⟨0, [client], [], false⟩, holding.length,
        ⟨client, .write, .exclusion⟩ :: queue.map (·.waitingAt .entry), holding⟩ := by
  simp [guard, any_write_of_reads h, Ask.waitingAt]

/-- The new machine stands for the new guard. -/
theorem guard_new : (new : Reference τ).guard = Guard.new := rfl

/-- The guard is closed when the machine is. -/
theorem closed_entry_guard (r : Reference τ) : r.guard.entry.closed = r.closed := by
  unfold guard
  split
  · rfl
  · split
    · rfl
    · rfl

/-- The guard shows the same clients inside as the machine. -/
theorem holding_guard (r : Reference τ) : r.guard.holding = r.holding := by
  unfold guard
  split
  · rfl
  · split
    · rfl
    · rfl

/-- The guard shows the same requests waiting as the machine, in the same order. -/
theorem ask_waiting_guard (r : Reference τ) : r.guard.waiting.map (·.ask) = r.queue := by
  have hback : ∀ stage : Stage, (Request.ask ∘ fun ask : Ask τ => ask.waitingAt stage) = id :=
    fun _ => rfl
  unfold guard
  split
  · rw [List.map_map, hback, List.map_id]
  · split
    next hq => rw [hq]; rfl
    next ask rest hq => rw [List.map_cons, List.map_map, hback, List.map_id, hq]; rfl

/-- The clients that wait at the guard are those in the queue of the machine, in order. -/
theorem client_waiting_guard (r : Reference τ) :
    r.guard.waiting.map (·.client) = r.queue.map (·.client) := by
  rw [← ask_waiting_guard r, List.map_map]
  rfl

/-- In any of the shapes, the guard counts the readers inside. -/
theorem readers_guard {r : Reference τ} (h : Settled r) :
    r.guard.readers = r.holding.countP fun hold => hold.access = .read := by
  have hcount : ∀ {holding : List (Hold τ)}, Reads holding →
      holding.length = holding.countP fun hold => hold.access = .read := by
    intro holding hr
    have hall : ∀ hold ∈ holding, decide (hold.access = .read) = true :=
      fun hold hm => decide_eq_true (hr hold hm)
    exact (List.countP_eq_length.mpr hall).symm
  cases h with
  | writing closed client queue _ => rw [guard_writing]; rfl
  | reading closed holding hr => rw [guard_reading closed hr]; exact hcount hr
  | blocked holding client queue hr _ => rw [guard_blocked hr]; exact hcount hr

end Reference

/-! ## Looking at requests -/

namespace Guard

variable [DecidableEq τ]

/-- No request can move: each is at the semaphore where it was, and this one
lets it go on waiting. -/
def Quiet (g : Guard τ) : Prop :=
  ∀ request ∈ g.waiting, g.advance request = (g, .waiting request.stage)

/-- Looking at a request of a quiet guard changes nothing. -/
theorem look_of_quiet {g : Guard τ} (hq : g.Quiet) (hn : (g.waiting.map (·.client)).Nodup)
    (granted failed : List τ) (client : τ) :
    look ⟨g, granted, failed⟩ client = ⟨g, granted, failed⟩ := by
  unfold look poll
  cases hf : g.find? client with
  | none => rfl
  | some request =>
    have hm : request ∈ g.waiting := List.mem_of_find?_eq_some hf
    have hp := List.find?_some hf
    have hc : request.client = client := of_decide_eq_true hp
    have hsame : g.waiting.map (fun other =>
        if other.client = client then { other with stage := request.stage } else other) =
        g.waiting := by
      refine (List.map_congr_left fun other ho => ?_).trans (List.map_id _)
      split
      next he =>
        have heq : other = request := List.inj_on_of_nodup_map hn ho hm (he.trans hc.symm)
        rw [heq]
        rfl
      next => rfl
    simp only [hq request hm, hsame]

/-- Looking at any clients in turn changes nothing where no request can move. -/
theorem foldl_look_of_quiet {g : Guard τ} (hq : g.Quiet)
    (hn : (g.waiting.map (·.client)).Nodup) (granted failed clients : List τ) :
    clients.foldl look ⟨g, granted, failed⟩ = ⟨g, granted, failed⟩ := by
  induction clients with
  | nil => rfl
  | cons client rest ih => rw [List.foldl_cons, look_of_quiet hq hn, ih]

/-- Any number of rounds changes nothing where no request can move. -/
theorem lookRounds_of_quiet {g : Guard τ} (hq : g.Quiet)
    (hn : (g.waiting.map (·.client)).Nodup) (granted failed : List τ) (rounds : Nat) :
    lookRounds rounds ⟨g, granted, failed⟩ = ⟨g, granted, failed⟩ := by
  induction rounds with
  | zero => rfl
  | succ rounds ih => rw [lookRounds, lookAll, foldl_look_of_quiet hq hn, ih]

/-- If no request can move after one look at all of them, this look has brought
all there is. -/
theorem settle_of_lookAll {g after : Guard τ} {granted failed : List τ}
    (h : lookAll ⟨g, [], []⟩ = ⟨after, granted, failed⟩) (hq : after.Quiet)
    (hn : (after.waiting.map (·.client)).Nodup) : g.settle = ⟨after, granted, failed⟩ := by
  unfold settle
  cases hw : g.waiting with
  | nil =>
    rw [lookAll, hw] at h
    exact h
  | cons request rest =>
    have hrounds : 2 * (request :: rest).length = (2 * rest.length + 1) + 1 := by
      rw [List.length_cons]
      omega
    rw [hrounds, lookRounds, h, lookRounds_of_quiet hq hn]

/-- A quiet guard stays as it is. -/
theorem settle_of_quiet {g : Guard τ} (hq : g.Quiet) (hn : (g.waiting.map (·.client)).Nodup) :
    g.settle = ⟨g, [], []⟩ :=
  settle_of_lookAll (foldl_look_of_quiet hq hn [] [] _) hq hn

end Guard

namespace Reference

/-- Distinct clients around a machine wait each once at its guard. -/
theorem nodup_waiting_guard {r : Reference τ} (h : r.clients.Nodup) :
    (r.guard.waiting.map (·.client)).Nodup := by
  rw [client_waiting_guard]
  exact (List.nodup_append.mp h).1

variable [DecidableEq τ]

/-- In any of the shapes, no request can move. -/
theorem quiet_guard {r : Reference τ} (h : Settled r) : r.guard.Quiet := by
  intro request hm
  cases h with
  | writing closed client queue he =>
    cases closed with
    | true =>
      rw [guard_writing, he rfl] at hm
      cases hm
    | false =>
      rw [guard_writing] at hm ⊢
      obtain ⟨ask, _, rfl⟩ := List.mem_map.mp hm
      simp [Guard.advance, Ask.waitingAt, Semaphore.poll, Guard.afterEntry]
  | reading closed holding hr =>
    rw [guard_reading closed hr] at hm
    cases hm
  | blocked holding client queue hr _ =>
    rw [guard_blocked hr] at hm ⊢
    rcases List.mem_cons.mp hm with rfl | hm
    · simp [Guard.advance, Semaphore.poll, Guard.afterExclusion]
    · obtain ⟨ask, _, rfl⟩ := List.mem_map.mp hm
      simp [Guard.advance, Ask.waitingAt, Semaphore.poll, Guard.afterEntry]

/-- In any of the shapes, the guard stays as it is. -/
theorem settle_guard {r : Reference τ} (h : Settled r) (hn : r.clients.Nodup) :
    r.guard.settle = ⟨r.guard, [], []⟩ :=
  Guard.settle_of_quiet (quiet_guard h) (nodup_waiting_guard hn)

end Reference

/-! ## Admission -/

namespace Guard

/-- The guard in which the entry has just been given back with only readers or
nobody inside: its permit is assigned to the first who waits. -/
def opened (holding : List (Hold τ)) (queue : List (Ask τ)) : Guard τ :=
  ⟨Semaphore.release ⟨0, queue.map (·.client), [], false⟩,
    ⟨if holding.isEmpty then 1 else 0, [], [], false⟩, holding.length,
    queue.map (·.waitingAt .entry), holding⟩

variable [DecidableEq τ]

/-- A reader who is first gets in and passes the entry on. -/
theorem look_opened_read {holding : List (Hold τ)} {client : τ} {rest : List (Ask τ)}
    (hn : ∀ ask ∈ rest, ask.client ≠ client) (granted failed : List τ) :
    look ⟨opened holding (⟨client, .read⟩ :: rest), granted, failed⟩ client =
      ⟨opened (holding ++ [⟨client, .read⟩]) rest, granted ++ [client], failed⟩ := by
  cases holding with
  | nil =>
    simpa [look, poll, find?, opened, Ask.waitingAt, Semaphore.release, advance, Semaphore.poll,
      afterEntry, Semaphore.request, afterExclusion, countReader, forget] using hn
  | cons hold others =>
    simpa [look, poll, find?, opened, Ask.waitingAt, Semaphore.release, advance, Semaphore.poll,
      afterEntry, countReader, forget] using hn

/-- A writer who is first gets in if nobody is inside, and keeps the entry. -/
theorem look_opened_write_free {client : τ} {rest : List (Ask τ)}
    (hn : ∀ ask ∈ rest, ask.client ≠ client) (granted failed : List τ) :
    look ⟨opened [] (⟨client, .write⟩ :: rest), granted, failed⟩ client =
      ⟨Reference.guard ⟨false, [⟨client, .write⟩], rest⟩, granted ++ [client], failed⟩ := by
  rw [Reference.guard_writing]
  simpa [look, poll, find?, opened, Ask.waitingAt, Semaphore.release, advance, Semaphore.poll,
    afterEntry, Semaphore.request, afterExclusion, forget] using hn

/-- A writer who is first passes the entry and waits at the exclusion if readers
are inside. -/
theorem look_opened_write_blocked {holding : List (Hold τ)} {client : τ} {rest : List (Ask τ)}
    (hr : Reads holding) (hi : holding ≠ []) (hn : ∀ ask ∈ rest, ask.client ≠ client)
    (granted failed : List τ) :
    look ⟨opened holding (⟨client, .write⟩ :: rest), granted, failed⟩ client =
      ⟨Reference.guard ⟨false, holding, ⟨client, .write⟩ :: rest⟩, granted, failed⟩ := by
  rw [Reference.guard_blocked hr]
  simpa [look, poll, find?, opened, Ask.waitingAt, Semaphore.release, advance, Semaphore.poll,
    afterEntry, Semaphore.request, afterExclusion, hi] using hn

/-- Looking at the requests of an opened guard in their order admits whom the
machine admits. -/
theorem foldl_look_opened {holding : List (Hold τ)} {queue : List (Ask τ)} (hr : Reads holding)
    (hn : (Reference.clients ⟨false, holding, queue⟩).Nodup) (granted failed : List τ) :
    (queue.map (·.client)).foldl look ⟨opened holding queue, granted, failed⟩ =
      ⟨(Reference.settle ⟨false, holding, queue⟩).machine.guard,
        granted ++ (Reference.settle ⟨false, holding, queue⟩).granted, failed⟩ := by
  -- By induction on the queue: a reader is let in and hands the entry on, and a writer keeps
  -- it.
  induction queue generalizing holding granted with
  | nil =>
    rw [Reference.settle_nil, Reference.guard_reading false hr, List.append_nil]
    rfl
  | cons ask rest ih =>
    obtain ⟨client, access⟩ := ask
    have hne := client_ne_of_nodup (List.nodup_append.mp hn).1
    have hperm := Reference.perm_admit_clients false holding ⟨client, access⟩ rest
    have hnext := hperm.nodup_iff.mpr hn
    rw [List.map_cons, List.foldl_cons]
    cases access with
    | read =>
      have hc := compatible_read hr
      have hi := ih (@reads_append _ _ hr ⟨client, .read⟩ rfl) hnext (granted ++ [client])
      rw [look_opened_read hne, hi, Reference.settle_cons_of_compatible hc, List.append_assoc]
      rfl
    | write =>
      by_cases hh : holding = []
      · subst hh
        have hs : Reference.Settled ⟨false, [⟨client, .write⟩], rest⟩ :=
          .writing false client rest fun he => nomatch he
        have hq := Reference.quiet_guard hs
        have hw := Reference.nodup_waiting_guard hnext
        rw [Reference.settle_cons_of_compatible rfl, List.nil_append, Ask.hold,
          Reference.settle_writer, look_opened_write_free hne]
        exact foldl_look_of_quiet hq hw _ _ _
      · have hs : Reference.Settled ⟨false, holding, ⟨client, .write⟩ :: rest⟩ :=
          .blocked holding client rest hr hh
        have hq := Reference.quiet_guard hs
        have hw := Reference.nodup_waiting_guard hn
        rw [Reference.settle_cons_of_not_compatible (compatible_write hh), List.append_nil,
          look_opened_write_blocked hr hh hne]
        exact foldl_look_of_quiet hq hw _ _ _

/-- An opened guard comes to rest as the machine does. -/
theorem settle_opened {holding : List (Hold τ)} {queue : List (Ask τ)} (hr : Reads holding)
    (hn : (Reference.clients ⟨false, holding, queue⟩).Nodup) :
    (opened holding queue).settle =
      ⟨(Reference.settle ⟨false, holding, queue⟩).machine.guard,
        (Reference.settle ⟨false, holding, queue⟩).granted, []⟩ := by
  have hs : (Reference.settle ⟨false, holding, queue⟩).machine.Settled :=
    Reference.settled_settle (fun he => nomatch he) hr
  have hc := (Reference.perm_clients_settle ⟨false, holding, queue⟩).nodup_iff.mpr hn
  have hall : lookAll ⟨opened holding queue, [], []⟩ =
      ⟨(Reference.settle ⟨false, holding, queue⟩).machine.guard,
        (Reference.settle ⟨false, holding, queue⟩).granted, []⟩ := by
    have hw : (opened holding queue).waiting.map (·.client) = queue.map (·.client) := by
      simp [opened, Ask.waitingAt]
    rw [lookAll, hw, foldl_look_opened hr hn, List.nil_append]
  exact settle_of_lookAll hall (Reference.quiet_guard hs) (Reference.nodup_waiting_guard hc)

end Guard

end EmbeddedSql.Lock
