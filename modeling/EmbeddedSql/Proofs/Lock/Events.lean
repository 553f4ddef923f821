import EmbeddedSql.Proofs.Lock.Settling

/-!
# What an event does to a guard

A request, a release, a withdrawal and the closing are followed one by one, from
each of the shapes in which the guard can be: what the event does at once, and
how the guard comes to rest after it, is what the machine with one queue does.
-/

namespace EmbeddedSql.Lock

variable {τ : Type}

namespace Guard

/-! ## Requests -/

/-- A closed guard turns a request away. -/
theorem noteRequest_of_closed {g : Guard τ} (h : g.entry.closed = true) (client : τ)
    (access : Access) : g.noteRequest client access = ⟨g, [], [client]⟩ := by
  simp [noteRequest, request, Semaphore.request, h, afterEntry]

/-- A request joins the queue if the entry is taken. -/
theorem noteRequest_of_taken {g : Guard τ} (hc : g.entry.closed = false)
    (hp : g.entry.permits = 0) (client : τ) (access : Access) :
    g.noteRequest client access =
      ⟨{ g with
          entry := { g.entry with queue := g.entry.queue ++ [client] }
          waiting := g.waiting ++ [⟨client, access, .entry⟩] }, [], []⟩ := by
  obtain ⟨⟨permits, queue, assigned, closed⟩, exclusion, readers, waiting, holding⟩ := g
  simp only at hc hp
  subst hc hp
  simp [noteRequest, request, Semaphore.request, afterEntry]

/-- What comes of a request at once is what the machine makes of it. -/
theorem noteRequest_guard {r : Reference τ} (h : r.Settled) (ho : r.closed = false) (client : τ)
    (access : Access) :
    r.guard.noteRequest client access =
      ⟨(Reference.settle { r with queue := r.queue ++ [⟨client, access⟩] }).machine.guard,
        (Reference.settle { r with queue := r.queue ++ [⟨client, access⟩] }).granted, []⟩ := by
  -- In each shape the answers of both semaphores can be computed.
  cases h with
  | writing closed writer queue _ =>
    cases ho
    rw [Reference.settle_writer, Reference.guard_writing, Reference.guard_writing,
      noteRequest_of_taken rfl rfl]
    simp [Ask.waitingAt]
  | reading closed holding hr =>
    cases ho
    rw [Reference.guard_reading false hr, List.nil_append]
    cases access with
    | read =>
      have hall := @reads_append _ _ hr ⟨client, .read⟩ rfl
      rw [Reference.settle_cons_of_compatible (compatible_read hr), Ask.hold, Reference.settle_nil,
        Reference.guard_reading false hall]
      cases holding with
      | nil =>
        simp [noteRequest, request, Semaphore.request, afterEntry, afterExclusion, countReader,
          Semaphore.release]
      | cons hold others =>
        simp [noteRequest, request, Semaphore.request, afterEntry, countReader, Semaphore.release]
    | write =>
      cases holding with
      | nil =>
        rw [Reference.settle_cons_of_compatible rfl, List.nil_append, Ask.hold,
          Reference.settle_writer, Reference.guard_writing]
        simp [noteRequest, request, Semaphore.request, afterEntry, afterExclusion]
      | cons hold others =>
        have hi : hold :: others ≠ [] := List.cons_ne_nil _ _
        rw [Reference.settle_cons_of_not_compatible (compatible_write hi),
          Reference.guard_blocked hr]
        simp [noteRequest, request, Semaphore.request, afterEntry, afterExclusion]
  | blocked holding writer queue hr hi =>
    rw [List.cons_append, Reference.settle_cons_of_not_compatible (compatible_write hi),
      Reference.guard_blocked hr, Reference.guard_blocked hr, noteRequest_of_taken rfl rfl]
    simp [Ask.waitingAt]

/-! ## Releases -/

variable [DecidableEq τ]

/-- Nothing happens if somebody gives back what they do not have. -/
theorem release_of_not_mem {g : Guard τ} {client : τ}
    (h : ∀ hold ∈ g.holding, hold.client ≠ client) : g.release client = g := by
  have hf : g.holding.find? (fun hold => decide (hold.client = client)) = none := by
    rw [List.find?_eq_none]
    intro hold hm
    simp [h hold hm]
  simp [release, held?, hf]

/-- One of several readers leaves, or the last one. -/
theorem release_of_reads {g : Guard τ} (hr : Reads g.holding) {client : τ}
    (h : client ∈ g.holding.map (·.client)) :
    g.release client =
      uncountReader
        { g with holding := g.holding.filter fun hold => decide (hold.client ≠ client) } := by
  obtain ⟨hold, hm, hc⟩ := List.mem_map.mp h
  cases hf : g.holding.find? (fun hold => decide (hold.client = client)) with
  | none =>
    have hn := List.find?_eq_none.mp hf hold hm
    exact absurd (decide_eq_true hc) hn
  | some found =>
    have ha : found.access = .read := hr found (List.mem_of_find?_eq_some hf)
    simp [release, held?, hf, ha]

/-- One who is inside leaves all the others. -/
theorem length_filter_client {holding : List (Hold τ)} {client : τ}
    (hn : (holding.map (·.client)).Nodup) (h : client ∈ holding.map (·.client)) :
    (holding.filter fun hold => decide (hold.client ≠ client)).length + 1 = holding.length := by
  induction holding with
  | nil => cases h
  | cons hold rest ih =>
    rw [List.map_cons, List.nodup_cons] at hn
    by_cases hc : hold.client = client
    · have hrest : rest.filter (fun hold => decide (hold.client ≠ client)) = rest :=
        filter_of_not_mem Hold.client (hc ▸ hn.1)
      rw [List.filter_cons_of_neg (by simp [hc]), hrest, List.length_cons]
    · have hm : client ∈ rest.map (·.client) := by
        rcases List.mem_cons.mp h with he | hm
        · exact absurd he.symm hc
        · exact hm
      rw [List.filter_cons_of_pos (by simp [hc]), List.length_cons, ih hn.2 hm, List.length_cons]

/-- A reader leaves readers, and nobody waits. -/
theorem release_reading (closed : Bool) {holding : List (Hold τ)} {client : τ}
    (hr : Reads holding) (hn : (holding.map (·.client)).Nodup)
    (hm : client ∈ holding.map (·.client)) :
    (Reference.guard ⟨closed, holding, []⟩).release client =
      Reference.guard ⟨closed, holding.filter fun hold => decide (hold.client ≠ client), []⟩ := by
  have hrest := reads_filter hr fun hold => decide (hold.client ≠ client)
  have hlength := length_filter_client hn hm
  have hi : holding ≠ [] := fun he => by simp [he] at hm
  rw [Reference.guard_reading closed hr, Reference.guard_reading closed hrest,
    release_of_reads hr hm]
  generalize (holding.filter fun hold => decide (hold.client ≠ client)) = others at hlength ⊢
  cases others with
  | nil => simp [uncountReader, ← hlength, Semaphore.release, hi]
  | cons hold rest => simp [uncountReader, ← hlength, hi]

/-- A reader leaves readers while a writer waits. -/
theorem release_blocked {holding : List (Hold τ)} {client writer : τ} {queue : List (Ask τ)}
    (hr : Reads holding) (hn : (holding.map (·.client)).Nodup)
    (hm : client ∈ holding.map (·.client))
    (hi : (holding.filter fun hold => decide (hold.client ≠ client)) ≠ []) :
    (Reference.guard ⟨false, holding, ⟨writer, .write⟩ :: queue⟩).release client =
      Reference.guard ⟨false, holding.filter fun hold => decide (hold.client ≠ client),
        ⟨writer, .write⟩ :: queue⟩ := by
  have hrest := reads_filter hr fun hold => decide (hold.client ≠ client)
  have hlength := length_filter_client hn hm
  rw [Reference.guard_blocked hr, Reference.guard_blocked hrest, release_of_reads hr hm]
  generalize (holding.filter fun hold => decide (hold.client ≠ client)) = others at hlength hi ⊢
  cases others with
  | nil => exact absurd rfl hi
  | cons hold rest => simp [uncountReader, ← hlength]

/-- The last reader leaves while a writer waits: the exclusion is assigned to the
writer. -/
theorem release_blocked_last {holding : List (Hold τ)} {client writer : τ}
    {queue : List (Ask τ)} (hr : Reads holding) (hn : (holding.map (·.client)).Nodup)
    (hm : client ∈ holding.map (·.client))
    (he : (holding.filter fun hold => decide (hold.client ≠ client)) = []) :
    (Reference.guard ⟨false, holding, ⟨writer, .write⟩ :: queue⟩).release client =
      ⟨⟨0, queue.map (·.client), [], false⟩, ⟨0, [], [writer], false⟩, 0,
        ⟨writer, .write, .exclusion⟩ :: queue.map (·.waitingAt .entry), []⟩ := by
  have hlength := length_filter_client hn hm
  rw [Reference.guard_blocked hr, release_of_reads hr hm]
  simp only [he, List.length_nil, Nat.zero_add] at hlength ⊢
  simp [uncountReader, ← hlength, Semaphore.release]

/-- A guard with a writer in front of the readers' last one to leave: the
exclusion is assigned to the writer, who gets in. -/
theorem settle_of_assigned {client : τ} {queue : List (Ask τ)}
    (hn : ((⟨client, .write⟩ :: queue : List (Ask τ)).map (·.client)).Nodup) :
    settle ⟨⟨0, queue.map (·.client), [], false⟩, ⟨0, [], [client], false⟩, 0,
        ⟨client, .write, .exclusion⟩ :: queue.map (·.waitingAt .entry), []⟩ =
      ⟨Reference.guard ⟨false, [⟨client, .write⟩], queue⟩, [client], []⟩ := by
  have hne := client_ne_of_nodup hn
  have hs : Reference.Settled ⟨false, [⟨client, .write⟩], queue⟩ :=
    .writing false client queue fun he => nomatch he
  have hq := Reference.quiet_guard hs
  have hw : ((Reference.guard ⟨false, [⟨client, .write⟩], queue⟩).waiting.map
      (·.client)).Nodup := by
    rw [Reference.client_waiting_guard]
    exact (List.nodup_cons.mp hn).2
  refine settle_of_lookAll ?_ hq hw
  have hlook : look ⟨⟨⟨0, queue.map (·.client), [], false⟩, ⟨0, [], [client], false⟩, 0,
        ⟨client, .write, .exclusion⟩ :: queue.map (·.waitingAt .entry), []⟩, [], []⟩ client =
      ⟨Reference.guard ⟨false, [⟨client, .write⟩], queue⟩, [client], []⟩ := by
    rw [Reference.guard_writing]
    simpa [look, poll, find?, advance, Semaphore.poll, afterExclusion, forget, Ask.waitingAt]
      using hne
  rw [lookAll, List.map_cons, List.foldl_cons, hlook]
  exact foldl_look_of_quiet hq hw _ _ _

/-- A client that is inside gives its access back, or one that is not does
nothing: the guard comes to rest as the machine does. -/
theorem settle_release {r : Reference τ} (h : r.Settled) (hn : r.clients.Nodup) (client : τ) :
    (r.guard.release client).settle =
      ⟨(r.handle (.release client)).machine.guard, (r.handle (.release client)).granted, []⟩ := by
  rw [Reference.handle]
  by_cases hm : client ∈ r.holding.map (·.client)
  · have hinside : (r.holding.map (·.client)).Nodup := (List.nodup_append.mp hn).2.1
    have hafter : (Reference.clients { r with
        holding := r.holding.filter fun hold => decide (hold.client ≠ client) }).Nodup :=
      hn.sublist (Reference.sublist_clients_filter_holding r _)
    cases h with
    | writing closed writer queue he =>
      have hc : client = writer := List.mem_singleton.mp hm
      subst hc
      have hempty : [(⟨client, .write⟩ : Hold τ)].filter (fun hold => hold.client ≠ client) =
          [] := by simp
      rw [hempty] at hafter ⊢
      -- The machine of a closed guard has nobody in its queue.
      cases closed with
      | true =>
        cases he rfl
        have hs : Reference.Settled (⟨true, [], []⟩ : Reference τ) :=
          .reading true [] fun hold hm => absurd hm List.not_mem_nil
        have hg : (Reference.guard ⟨true, [⟨client, .write⟩], []⟩).release client =
            Reference.guard ⟨true, [], []⟩ := by
          simp [Reference.guard, release, held?, Semaphore.release]
        rw [hg, Reference.settle_nil, Reference.settle_guard hs hafter]
      | false =>
        have hg : (Reference.guard ⟨false, [⟨client, .write⟩], queue⟩).release client =
            opened [] queue := by
          rw [Reference.guard_writing]
          simp [release, held?, Semaphore.release, opened]
        rw [hg]
        exact settle_opened (fun hold hm => absurd hm List.not_mem_nil) hafter
    | reading closed holding hr =>
      have hs : Reference.Settled (⟨closed, holding.filter fun hold =>
          decide (hold.client ≠ client), []⟩ : Reference τ) := .reading closed _ (reads_filter hr _)
      rw [release_reading closed hr hinside hm, Reference.settle_nil,
        Reference.settle_guard hs hafter]
    | blocked holding writer queue hr _ =>
      -- The last reader hands the exclusion to the writer who waits there; other readers leave
      -- it.
      by_cases he : (holding.filter fun hold => decide (hold.client ≠ client)) = []
      · have hwait := (List.nodup_append.mp hn).1
        rw [release_blocked_last hr hinside hm he, settle_of_assigned hwait, he,
          Reference.settle_cons_of_compatible rfl, List.nil_append, Ask.hold,
          Reference.settle_writer]
      · have hs : Reference.Settled (⟨false, holding.filter fun hold =>
            decide (hold.client ≠ client), ⟨writer, .write⟩ :: queue⟩ : Reference τ) :=
          .blocked _ writer queue (reads_filter hr _) he
        rw [release_blocked hr hinside hm he, Reference.settle_guard hs hafter,
          Reference.settle_of_settled hs]
  · have hother : ∀ hold ∈ r.holding, hold.client ≠ client :=
      fun hold hh he => hm (he ▸ List.mem_map_of_mem hh)
    have hsame : r.holding.filter (fun hold => decide (hold.client ≠ client)) = r.holding :=
      filter_of_not_mem Hold.client hm
    have hg : r.guard.release client = r.guard := by
      refine release_of_not_mem ?_
      rw [Reference.holding_guard]
      exact hother
    rw [hsame, hg, Reference.settle_guard h hn, Reference.settle_of_settled h]

/-! ## Withdrawals -/

/-- Nothing happens if somebody withdraws a request that does not wait. -/
theorem cancel_of_not_mem {g : Guard τ} {client : τ}
    (h : client ∉ g.waiting.map (·.client)) : g.cancel client = g := by
  have hf : g.waiting.find? (fun request => decide (request.client = client)) = none := by
    rw [List.find?_eq_none]
    intro request hm he
    exact h (of_decide_eq_true he ▸ List.mem_map_of_mem hm)
  simp [cancel, find?, hf]

/-- A request that waits at the entry leaves the queue there. -/
theorem cancel_of_entry {g : Guard τ} {client : τ} (ha : g.entry.assigned = [])
    (h : client ∈ g.waiting.map (·.client))
    (hs : ∀ request ∈ g.waiting, request.client = client → request.stage = .entry) :
    g.cancel client =
      { g with
        waiting := g.waiting.filter fun request => decide (request.client ≠ client)
        entry := { g.entry with queue := g.entry.queue.erase client } } := by
  obtain ⟨request, hm, hc⟩ := List.mem_map.mp h
  cases hf : g.waiting.find? (fun request => decide (request.client = client)) with
  | none =>
    have hn := List.find?_eq_none.mp hf request hm
    exact absurd (decide_eq_true hc) hn
  | some found =>
    have hp := List.find?_some hf
    have hfound : found.client = client := of_decide_eq_true hp
    have hstage := hs found (List.mem_of_find?_eq_some hf) hfound
    simp [cancel, find?, hf, hstage, forget, Semaphore.cancel, ha]

/-- Without a client the requests are those of the queue without the client. -/
theorem filter_waitingAt (queue : List (Ask τ)) (client : τ) (stage : Stage) :
    (queue.map (·.waitingAt stage)).filter (fun request => decide (request.client ≠ client)) =
      (queue.filter fun ask => decide (ask.client ≠ client)).map (·.waitingAt stage) := by
  rw [List.filter_map]
  rfl

/-- Erasing a client from distinct ones leaves those of the queue without it. -/
theorem erase_clients {queue : List (Ask τ)} (hn : (queue.map (·.client)).Nodup) (client : τ) :
    (queue.map (·.client)).erase client =
      (queue.filter fun ask => decide (ask.client ≠ client)).map (·.client) := by
  rw [hn.erase_eq_filter, List.filter_map]
  congr 1
  refine List.filter_congr fun ask _ => ?_
  simp only [bne, Function.comp, beq_eq_decide, ne_eq, decide_not]

/-- A writer in front of the readers inside withdraws: the entry is given back. -/
theorem cancel_blocked_head {holding : List (Hold τ)} {client : τ} {queue : List (Ask τ)}
    (hr : Reads holding) (hi : holding ≠ []) (hn : ∀ ask ∈ queue, ask.client ≠ client) :
    (Reference.guard ⟨false, holding, ⟨client, .write⟩ :: queue⟩).cancel client =
      opened holding queue := by
  rw [Reference.guard_blocked hr]
  simpa [cancel, find?, forget, Semaphore.cancel, opened, hi, Ask.waitingAt] using hn

/-- Someone behind the writer in front of the readers inside withdraws. -/
theorem cancel_blocked_behind {holding : List (Hold τ)} {client writer : τ}
    {queue : List (Ask τ)} (hr : Reads holding) (hc : writer ≠ client)
    (hn : (queue.map (·.client)).Nodup) (hm : client ∈ queue.map (·.client)) :
    (Reference.guard ⟨false, holding, ⟨writer, .write⟩ :: queue⟩).cancel client =
      Reference.guard ⟨false, holding,
        ⟨writer, .write⟩ :: queue.filter fun ask => decide (ask.client ≠ client)⟩ := by
  have hwaits : client ∈
      (Reference.guard ⟨false, holding, ⟨writer, .write⟩ :: queue⟩).waiting.map (·.client) := by
    rw [Reference.client_waiting_guard]
    exact List.mem_cons_of_mem _ hm
  have hentry : ∀ request ∈
      (Reference.guard ⟨false, holding, ⟨writer, .write⟩ :: queue⟩).waiting,
      request.client = client → request.stage = .entry := by
    intro request hreq he
    rw [Reference.guard_blocked hr] at hreq
    rcases List.mem_cons.mp hreq with rfl | hreq
    · exact absurd he hc
    · obtain ⟨ask, _, rfl⟩ := List.mem_map.mp hreq
      rfl
  have hassigned : (Reference.guard ⟨false, holding, ⟨writer, .write⟩ :: queue⟩).entry.assigned =
      [] := by rw [Reference.guard_blocked hr]
  have hkept : (!decide (writer = client)) = true := by simp [hc]
  rw [cancel_of_entry hassigned hwaits hentry, Reference.guard_blocked hr,
    Reference.guard_blocked hr]
  simp only [ne_eq, decide_not, List.filter_cons, hkept, if_true]
  have hf := filter_waitingAt queue client .entry
  have he := erase_clients hn client
  simp only [ne_eq, decide_not] at hf he
  rw [hf, he]

/-- Without a client that waits or not, the guard comes to rest as the machine
does. -/
theorem settle_cancel {r : Reference τ} (h : r.Settled) (hn : r.clients.Nodup) (client : τ) :
    (r.guard.cancel client).settle =
      ⟨(r.handle (.cancel client)).machine.guard, (r.handle (.cancel client)).granted, []⟩ := by
  rw [Reference.handle]
  have hwait : (r.queue.map (·.client)).Nodup := (List.nodup_append.mp hn).1
  have hafter : (Reference.clients { r with
      queue := r.queue.filter fun ask => decide (ask.client ≠ client) }).Nodup :=
    hn.sublist (Reference.sublist_clients_filter_queue r _)
  by_cases hm : client ∈ r.queue.map (·.client)
  · cases h with
    | writing closed writer queue he =>
      -- Behind a writer everyone waits at the entry, and nobody is let in.
      have hs : Reference.Settled (⟨closed, [⟨writer, .write⟩],
          queue.filter fun ask => decide (ask.client ≠ client)⟩ : Reference τ) :=
        .writing closed writer _ fun hc => by rw [he hc, List.filter_nil]
      have hg : (Reference.guard ⟨closed, [⟨writer, .write⟩], queue⟩).cancel client =
          Reference.guard ⟨closed, [⟨writer, .write⟩],
            queue.filter fun ask => decide (ask.client ≠ client)⟩ := by
        rw [cancel_of_entry (by rw [Reference.guard_writing])
          (by rwa [Reference.client_waiting_guard])]
        · rw [Reference.guard_writing, Reference.guard_writing, filter_waitingAt,
            erase_clients hwait]
        · intro request hr _
          rw [Reference.guard_writing] at hr
          obtain ⟨ask, _, rfl⟩ := List.mem_map.mp hr
          rfl
      rw [hg, Reference.settle_writer, Reference.settle_guard hs hafter]
    | reading closed holding hr => cases hm
    | blocked holding writer queue hr hi =>
      -- If the writer in front withdraws, the entry is free for those behind it; if somebody
      -- else does, the writer stays in front of them.
      have hbehind := (List.nodup_cons.mp hwait).2
      by_cases hc : writer = client
      · subst hc
        have hne := client_ne_of_nodup hwait
        have hrest : (⟨writer, .write⟩ :: queue).filter
            (fun ask : Ask τ => decide (ask.client ≠ writer)) = queue := by
          rw [List.filter_cons_of_neg (by simp)]
          exact filter_of_not_mem Ask.client (List.nodup_cons.mp hwait).1
        rw [hrest] at hafter ⊢
        rw [cancel_blocked_head hr hi hne, settle_opened hr hafter]
      · have hrest : (⟨writer, .write⟩ :: queue).filter
            (fun ask : Ask τ => decide (ask.client ≠ client)) =
            ⟨writer, .write⟩ :: queue.filter fun ask => decide (ask.client ≠ client) :=
          List.filter_cons_of_pos (by simp [hc])
        have hmem : client ∈ queue.map (·.client) := by
          rcases List.mem_cons.mp hm with he | hmem
          · exact absurd he.symm hc
          · exact hmem
        have hs : Reference.Settled (⟨false, holding,
            ⟨writer, .write⟩ :: queue.filter fun ask => decide (ask.client ≠ client)⟩ :
            Reference τ) := .blocked holding writer _ hr hi
        rw [hrest] at hafter ⊢
        rw [cancel_blocked_behind hr hc hbehind hmem, Reference.settle_guard hs hafter,
          Reference.settle_of_settled hs]
  · have hsame : r.queue.filter (fun ask => decide (ask.client ≠ client)) = r.queue :=
      filter_of_not_mem Ask.client hm
    have hg : r.guard.cancel client = r.guard := by
      refine cancel_of_not_mem ?_
      rwa [Reference.client_waiting_guard]
    rw [hsame, hg, Reference.settle_guard h hn, Reference.settle_of_settled h]

/-! ## Closing -/

/-- Looking at the requests at a closed entry makes all of them fail. -/
theorem foldl_look_closed {queue : List (Ask τ)} (hn : (queue.map (·.client)).Nodup)
    (permits : Nat) (exclusion : Semaphore τ) (readers : Nat) (holding : List (Hold τ))
    (granted failed : List τ) :
    (queue.map (·.client)).foldl look
        ⟨⟨⟨permits, [], [], true⟩, exclusion, readers, queue.map (·.waitingAt .entry), holding⟩,
          granted, failed⟩ =
      ⟨⟨⟨permits, [], [], true⟩, exclusion, readers, [], holding⟩, granted,
        failed ++ queue.map (·.client)⟩ := by
  induction queue generalizing failed with
  | nil => simp
  | cons ask rest ih =>
    have hne := client_ne_of_nodup hn
    have hlook : look ⟨⟨⟨permits, [], [], true⟩, exclusion, readers,
          ask.waitingAt .entry :: rest.map (·.waitingAt .entry), holding⟩, granted, failed⟩
        ask.client =
        ⟨⟨⟨permits, [], [], true⟩, exclusion, readers, rest.map (·.waitingAt .entry), holding⟩,
          granted, failed ++ [ask.client]⟩ := by
      simpa [look, poll, find?, Ask.waitingAt, advance, Semaphore.poll, Semaphore.cancel,
        afterEntry, forget] using hne
    have hi := ih (List.nodup_cons.mp hn).2 (failed ++ [ask.client])
    simp only [List.map_cons, List.foldl_cons]
    rw [hlook, hi, List.append_assoc, List.singleton_append]

/-- A closed guard makes all requests fail, and whoever is inside stays. -/
theorem settle_close {r : Reference τ} (h : r.Settled) (hn : r.clients.Nodup) :
    r.guard.close.settle =
      ⟨Reference.guard ⟨true, r.holding, []⟩, [], r.queue.map (·.client)⟩ := by
  have hwait : (r.queue.map (·.client)).Nodup := (List.nodup_append.mp hn).1
  have hafter : (Reference.clients ⟨true, r.holding, []⟩).Nodup := (List.nodup_append.mp hn).2.1
  have hs := Reference.settled_handle h .close
  have hq := Reference.quiet_guard hs
  have hw := Reference.nodup_waiting_guard hafter
  -- One round of looks makes everybody fail who waits, and then nobody can move.
  refine settle_of_lookAll ?_ hq hw
  cases h with
  | writing closed writer queue _ =>
    have hfold := foldl_look_closed hwait 0 ⟨0, [], [], true⟩ 0 [⟨writer, .write⟩] [] []
    have hc : (queue.map (·.waitingAt .entry)).map (·.client) = queue.map (·.client) := by
      simp [Ask.waitingAt]
    rw [Reference.guard_writing, Reference.guard_writing]
    simp only [close, Semaphore.close, lookAll, hc]
    exact hfold
  | reading closed holding hr =>
    rw [Reference.guard_reading closed hr, Reference.guard_reading true hr]
    rfl
  | blocked holding writer queue hr hi =>
    have hbehind := (List.nodup_cons.mp hwait).2
    have hne := client_ne_of_nodup hwait
    have hlook : look ⟨⟨⟨0, [], [], true⟩, ⟨0, [], [], true⟩, holding.length,
          ⟨writer, .write, .exclusion⟩ :: queue.map (·.waitingAt .entry), holding⟩, [], []⟩
        writer =
        ⟨⟨⟨1, [], [], true⟩, ⟨0, [], [], true⟩, holding.length,
          queue.map (·.waitingAt .entry), holding⟩, [], [writer]⟩ := by
      simpa [look, poll, find?, Ask.waitingAt, advance, Semaphore.poll, Semaphore.cancel,
        Semaphore.release, afterExclusion, forget] using hne
    have hfold := foldl_look_closed hbehind 1 ⟨0, [], [], true⟩ holding.length holding [] [writer]
    have hc : (queue.map (·.waitingAt .entry)).map (·.client) = queue.map (·.client) := by
      simp [Ask.waitingAt]
    rw [Reference.guard_blocked hr, Reference.guard_reading true hr]
    simp only [close, Semaphore.close, lookAll, List.map_cons, List.foldl_cons, hc]
    rw [hlook, hfold]
    simp [hi]

end Guard

end EmbeddedSql.Lock
