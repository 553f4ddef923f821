import EmbeddedSql.Proofs.Lock.Closing
import EmbeddedSql.Proofs.Lock.Exclusion

/-!
# No permit of a guard is lost

Each of the two permits of a guard is always somewhere: free, assigned to one who
waits, or with those who have it. The entry's permit is with a writer inside or with a
request that waits at the exclusion, and the exclusion's with the writer inside or with
the readers together. Only requests that wait stand in a queue or have a permit
assigned, so whoever leaves, in whatever way, keeps hold of nothing.
-/

namespace EmbeddedSql.Lock

variable {τ : Type}

/-! ## Those who are concerned with a semaphore -/

namespace Semaphore

/-- The clients in the queue and those with a permit to pick up. -/
def clients (s : Semaphore τ) : List τ :=
  s.queue ++ s.assigned

/-- Of the given clients some wait, each once, and nobody else does. -/
structure Attends (s : Semaphore τ) (list : List τ) : Prop where
  /-- Nobody waits twice. -/
  distinct : s.clients.Nodup
  /-- Everybody who waits is one of them. -/
  subset : s.clients ⊆ list

variable {s : Semaphore τ} {client : τ} {list : List τ}

/-- At a new semaphore nobody waits. -/
theorem attends_ofPermits (permits : Nat) : (ofPermits permits : Semaphore τ).Attends [] where
  distinct := List.nodup_nil
  subset := List.Subset.refl _

/-- Those who wait are among a longer list as well. -/
theorem Attends.mono (h : s.Attends list) {more : List τ} (hm : list ⊆ more) : s.Attends more :=
  ⟨h.distinct, List.Subset.trans h.subset hm⟩

/-- A permit that is given back changes only which of the clients that wait have one to pick
up. -/
theorem perm_clients_release (s : Semaphore τ) : s.release.clients.Perm s.clients := by
  unfold release clients
  split
  next first rest hq =>
    simp only [hq, ← List.append_assoc]
    exact List.perm_append_singleton _ _
  next hq => simp [hq]

/-- The same clients wait when a permit has been given back. -/
theorem Attends.release (h : s.Attends list) : s.release.Attends list where
  distinct := (perm_clients_release s).nodup_iff.mpr h.distinct
  subset := List.Subset.trans (perm_clients_release s).subset h.subset

/-- Nobody comes to wait at a semaphore that is closed. -/
theorem Attends.close (h : s.Attends list) : s.close.Attends list where
  distinct := h.distinct.sublist (List.sublist_append_right _ _)
  subset := List.Subset.trans (List.sublist_append_right _ _).subset h.subset

/-- Who asks waits if the answer says so. -/
theorem Attends.request (h : s.Attends list) (hn : client ∉ list) :
    (s.request client).1.Attends
      (if (s.request client).2 = .waiting then client :: list else list) := by
  unfold Semaphore.request
  split
  · exact h
  · split
    next n hp => exact ⟨h.distinct, h.subset⟩
    next hp =>
      have hperm : (Semaphore.mk 0 (s.queue ++ [client]) s.assigned s.closed).clients.Perm
          (client :: s.clients) := by
        rw [clients, clients, List.append_assoc, List.singleton_append]
        exact List.perm_middle
      have hnew : (client :: s.clients).Nodup :=
        List.nodup_cons.mpr ⟨fun hm => hn (h.subset hm), h.distinct⟩
      refine ⟨hperm.nodup_iff.mpr hnew, ?_⟩
      exact List.Subset.trans hperm.subset (List.cons_subset_cons client h.subset)

/-- An open semaphore at which nobody waits is as good as new. -/
theorem Attends.eq_ofPermits (h : s.Attends []) (hc : s.closed = false) :
    s = ofPermits s.spare := by
  obtain ⟨permits, queue, assigned, closed⟩ := s
  have hnobody := List.append_eq_nil_iff.mp (List.subset_nil.mp h.subset)
  obtain ⟨rfl, rfl⟩ : queue = [] ∧ assigned = [] := hnobody
  obtain rfl : closed = false := hc
  rfl

variable [DecidableEq τ]

/-- Taking one out leaves the others. -/
theorem nodup_erase_subset {clients list : List τ} (hd : clients.Nodup)
    (hs : clients ⊆ client :: list) : clients.erase client ⊆ list := by
  intro other ho
  have hother := (hd.mem_erase_iff).mp ho
  exact (List.mem_cons.mp (hs hother.2)).resolve_left hother.1

/-- Erasing a client with an assigned permit from those who have one erases it from all who
wait. -/
theorem clients_erase_assigned (hd : s.clients.Nodup) (hm : client ∈ s.assigned) :
    s.queue ++ s.assigned.erase client = s.clients.erase client := by
  have hq : client ∉ s.queue := fun hq => (List.nodup_append.mp hd).2.2 client hq client hm rfl
  rw [clients, List.erase_append_right _ hq]

/-- Erasing a client without an assigned permit from the queue erases it from all who wait. -/
theorem clients_erase_queue (hm : client ∉ s.assigned) :
    s.queue.erase client ++ s.assigned = s.clients.erase client := by
  rw [clients]
  by_cases hq : client ∈ s.queue
  · rw [List.erase_append_left _ hq]
  · rw [List.erase_append_right _ hq, List.erase_of_not_mem hq, List.erase_of_not_mem hm]

/-- Who withdraws does not wait any more. -/
theorem Attends.cancel (h : s.Attends (client :: list)) : (s.cancel client).Attends list := by
  have herased : (s.clients.erase client).Nodup := h.distinct.erase client
  have hsubset := nodup_erase_subset h.distinct h.subset
  unfold Semaphore.cancel
  split
  next hm =>
    rw [← clients_erase_assigned h.distinct hm] at herased hsubset
    exact Attends.release ⟨herased, hsubset⟩
  next hm =>
    rw [← clients_erase_queue hm] at herased hsubset
    exact ⟨herased, hsubset⟩

/-- Who looks waits on if the answer says so. -/
theorem Attends.poll (h : s.Attends (client :: list)) :
    (s.poll client).1.Attends
      (if (s.poll client).2 = .waiting then client :: list else list) := by
  unfold Semaphore.poll
  split
  · exact h.cancel
  · split
    next hm =>
      have herased : (s.clients.erase client).Nodup := h.distinct.erase client
      have hsubset := nodup_erase_subset h.distinct h.subset
      rw [← clients_erase_assigned h.distinct hm] at herased hsubset
      exact ⟨herased, hsubset⟩
    next => exact h

end Semaphore

/-! ## Both permits of a guard -/

/-- The clients whose requests wait at a semaphore. -/
def clientsAt (stage : Stage) (waiting : List (Request τ)) : List τ :=
  (waiting.filter fun r => r.stage = stage).map (·.client)

/-- The clients at a semaphore with one more request. -/
theorem clientsAt_insert (stage : Stage) (front back : List (Request τ)) (r : Request τ) :
    (clientsAt stage (front ++ r :: back)).Perm
      (if r.stage = stage then r.client :: clientsAt stage (front ++ back)
        else clientsAt stage (front ++ back)) := by
  simp only [clientsAt, List.filter_append, List.filter_cons, decide_eq_true_eq]
  split
  · rw [List.map_append, List.map_append, List.map_cons]
    exact List.perm_middle
  · exact List.Perm.refl _

namespace Guard

/-- Both permits are somewhere, given those who are inside, those who wait at each of the
semaphores, and the permits of the entry and of the exclusion that an operation has
picked up for somebody who is not inside yet. -/
structure Whole (g : Guard τ) (holding : List (Hold τ)) (entering excluding : List τ)
    (carried picked : Nat) : Prop where
  /-- The readers are counted. -/
  counted : g.readers = readersIn holding
  /-- The entry's permit is spare, picked up, with a writer, or with one who waits at the
  exclusion. -/
  entry : g.entry.spare + carried + writersIn holding + excluding.length = 1
  /-- The exclusion's permit is spare, picked up, with a writer, or with the readers. -/
  exclusion : g.exclusion.spare + picked + writersIn holding + min g.readers 1 = 1
  /-- Those who wait at the entry. -/
  entering : g.entry.Attends entering
  /-- Those who wait at the exclusion. -/
  excluding : g.exclusion.Attends excluding

/-- Both permits are somewhere, and everybody waits once. -/
structure Conserves (g : Guard τ) : Prop where
  /-- Both permits are somewhere. -/
  whole : g.Whole g.holding (clientsAt .entry g.waiting) (clientsAt .exclusion g.waiting) 0 0
  /-- Everybody waits once. -/
  distinct : (g.waiting.map (·.client)).Nodup

/-- In a new guard both permits are free and nobody waits. -/
theorem conserves_new : (new : Guard τ).Conserves where
  whole := ⟨rfl, rfl, rfl, Semaphore.attends_ofPermits 1,
    Semaphore.attends_ofPermits 1⟩
  distinct := List.nodup_nil

/-- Closing a guard loses none of its permits. -/
theorem Conserves.close {g : Guard τ} (h : g.Conserves) : g.close.Conserves where
  whole := ⟨h.whole.counted, h.whole.entry, h.whole.exclusion, h.whole.entering.close,
    h.whole.excluding.close⟩
  distinct := h.distinct

variable {g : Guard τ} {holding : List (Hold τ)} {entering excluding : List τ} {client : τ}

/-- Whoever comes from the exclusion gives the entry's permit back, takes it inside, or
keeps it while waiting. -/
theorem Whole.afterExclusion {answer : Answer}
    (h : g.Whole holding entering
      (if answer = .waiting then client :: excluding else excluding)
      (if answer = .waiting then 0 else 1) (if answer = .granted then 1 else 0))
    (access : Access) :
    (g.afterExclusion access answer).1.Whole
      (letIn holding client access (g.afterExclusion access answer).2)
      (if (g.afterExclusion access answer).2 = .waiting .entry then client :: entering
        else entering)
      (if (g.afterExclusion access answer).2 = .waiting .exclusion then client :: excluding
        else excluding) 0 0 := by
  have hcounted := h.counted
  have hentry := h.entry
  have hexclusion := h.exclusion
  cases answer with
  | waiting => exact h
  | failed =>
    refine ⟨hcounted, ?_, hexclusion, h.entering.release, h.excluding⟩
    simp only [Guard.afterExclusion, letIn, Semaphore.spare_release]
    simp only [reduceCtorEq, if_false] at hentry ⊢
    omega
  | granted =>
    simp only [reduceCtorEq, if_true, if_false] at hentry hexclusion
    cases access with
    | read =>
      refine ⟨?_, ?_, ?_, h.entering.release, h.excluding⟩
      · simp only [Guard.afterExclusion, letIn, readersIn_append, countReader, hcounted, if_true]
      · simp only [Guard.afterExclusion, letIn, writersIn_append, countReader, reduceCtorEq,
          Semaphore.spare_release, if_false]
        omega
      · simp only [Guard.afterExclusion, letIn, writersIn_append, countReader, reduceCtorEq,
          if_false]
        omega
    | write =>
      refine ⟨?_, ?_, ?_, h.entering, h.excluding⟩
      · simp only [Guard.afterExclusion, letIn, readersIn_append]
        simpa using hcounted
      · simp only [Guard.afterExclusion, letIn, writersIn_append, reduceCtorEq, if_true, if_false]
        omega
      · simp only [Guard.afterExclusion, letIn, writersIn_append, if_true]
        omega

/-- Whoever comes from the entry joins the readers, or asks for the exclusion. -/
theorem Whole.afterEntry {answer : Answer}
    (h : g.Whole holding (if answer = .waiting then client :: entering else entering) excluding
      (if answer = .granted then 1 else 0) 0)
    (hn : client ∉ excluding) (access : Access) :
    (g.afterEntry client access answer).1.Whole
      (letIn holding client access (g.afterEntry client access answer).2)
      (if (g.afterEntry client access answer).2 = .waiting .entry then client :: entering
        else entering)
      (if (g.afterEntry client access answer).2 = .waiting .exclusion then client :: excluding
        else excluding) 0 0 := by
  have hcounted := h.counted
  have hentry := h.entry
  have hexclusion := h.exclusion
  cases answer with
  | failed => exact h
  | waiting => exact h
  | granted =>
    simp only [if_true] at hentry
    simp only [Guard.afterEntry]
    split
    next hjoins =>
      obtain ⟨rfl, hreaders⟩ := hjoins
      refine ⟨?_, ?_, ?_, h.entering.release, h.excluding⟩
      · simp only [letIn, readersIn_append, countReader, hcounted, if_true]
      · simp only [letIn, writersIn_append, countReader, reduceCtorEq, if_false,
          Semaphore.spare_release]
        omega
      · simp only [letIn, writersIn_append, countReader, reduceCtorEq, if_false]
        omega
    next =>
      -- The entry's permit goes on with the client, who now asks for the exclusion.
      have hspare := Semaphore.spare_request g.exclusion client
      have hattends := h.excluding.request hn
      have hasked : Whole { g with exclusion := (g.exclusion.request client).1 } holding entering
          (if (g.exclusion.request client).2 = .waiting then client :: excluding else excluding)
          (if (g.exclusion.request client).2 = .waiting then 0 else 1)
          (if (g.exclusion.request client).2 = .granted then 1 else 0) := by
        refine ⟨hcounted, ?_, ?_, h.entering, hattends⟩
        · split
          next =>
            simp only [List.length_cons]
            omega
          next =>
            simp only
            omega
        · simp only
          omega
      exact hasked.afterExclusion access

/-- The requests that wait once a request has come to something. -/
def queueUp (waiting : List (Request τ)) (client : τ) (access : Access) :
    Progress → List (Request τ)
  | .waiting stage => waiting ++ [⟨client, access, stage⟩]
  | _ => waiting

/-- The clients at a semaphore once a request has come to something. -/
theorem clientsAt_queueUp (stage : Stage) (waiting : List (Request τ)) (client : τ)
    (access : Access) (progress : Progress) :
    (if progress = .waiting stage then client :: clientsAt stage waiting
      else clientsAt stage waiting).Perm
      (clientsAt stage (queueUp waiting client access progress)) := by
  cases progress with
  | granted => exact .refl _
  | failed => exact .refl _
  | waiting reached =>
    have hinsert := clientsAt_insert stage waiting [] ⟨client, access, reached⟩
    rw [List.append_nil] at hinsert
    simp only [queueUp, Progress.waiting.injEq]
    exact hinsert.symm

/-- A guard is whole with other lists of the same clients. -/
theorem Whole.congr {carried picked : Nat}
    (h : g.Whole holding entering excluding carried picked) {entering' excluding' : List τ}
    (he : entering.Perm entering') (hx : excluding.Perm excluding') :
    g.Whole holding entering' excluding' carried picked :=
  ⟨h.counted, hx.length_eq ▸ h.entry, h.exclusion, h.entering.mono he.subset,
    h.excluding.mono hx.subset⟩

/-- Whoever has no request that waits does not wait at a semaphore. -/
theorem not_mem_clientsAt {waiting : List (Request τ)} (hn : ∀ r ∈ waiting, r.client ≠ client)
    (stage : Stage) : client ∉ clientsAt stage waiting := by
  intro hm
  obtain ⟨r, hr, he⟩ := List.mem_map.mp hm
  exact hn r (List.mem_of_mem_filter hr) he

/-- When the request of a client who did not wait has come to something, everybody waits once.
-/
theorem nodup_queueUp {waiting : List (Request τ)} (hd : (waiting.map (·.client)).Nodup)
    (hn : ∀ r ∈ waiting, r.client ≠ client) (access : Access) (progress : Progress) :
    ((queueUp waiting client access progress).map (·.client)).Nodup := by
  cases progress with
  | granted => exact hd
  | failed => exact hd
  | waiting stage =>
    rw [queueUp, List.map_append, List.nodup_append]
    refine ⟨hd, List.pairwise_singleton _ client, ?_⟩
    intro first hf second hs
    obtain ⟨r, hr, rfl⟩ := List.mem_map.mp hf
    rw [List.mem_singleton.mp hs]
    exact hn r hr

/-- A guard in which a request has come to something conserves its permits. -/
theorem conserves_of_queueUp {waiting : List (Request τ)} (access : Access) (progress : Progress)
    (h : g.Whole g.holding
      (if progress = .waiting .entry then client :: clientsAt .entry waiting
        else clientsAt .entry waiting)
      (if progress = .waiting .exclusion then client :: clientsAt .exclusion waiting
        else clientsAt .exclusion waiting) 0 0)
    (hd : (waiting.map (·.client)).Nodup) (hn : ∀ r ∈ waiting, r.client ≠ client)
    (hw : g.waiting.Perm (queueUp waiting client access progress)) : g.Conserves := by
  have hperm (stage : Stage) := (clientsAt_queueUp stage waiting client access progress).trans
    ((hw.symm.filter _).map _)
  refine ⟨h.congr (hperm .entry) (hperm .exclusion), ?_⟩
  exact (hw.map _).nodup_iff.mpr (nodup_queueUp hd hn access progress)

/-- A client who is not around asks. -/
theorem Conserves.request (h : g.Conserves) (hn : ∀ r ∈ g.waiting, r.client ≠ client)
    (access : Access) : (g.request client access).1.Conserves := by
  have hnot := not_mem_clientsAt hn
  have hspare := Semaphore.spare_request g.entry client
  have hentry := h.whole.entry
  have hasked : Whole { g with entry := (g.entry.request client).1 } g.holding
      (if (g.entry.request client).2 = .waiting then client :: clientsAt .entry g.waiting
        else clientsAt .entry g.waiting) (clientsAt .exclusion g.waiting)
      (if (g.entry.request client).2 = .granted then 1 else 0) 0 :=
    ⟨h.whole.counted, by simp only; omega, h.whole.exclusion, h.whole.entering.request (hnot _),
      h.whole.excluding⟩
  have hafter := hasked.afterEntry (hnot _) access
  have hholding := holding_afterEntry { g with entry := (g.entry.request client).1 } client access
    (g.entry.request client).2
  have hwaiting := waiting_afterEntry { g with entry := (g.entry.request client).1 } client access
    (g.entry.request client).2
  unfold Guard.request
  simp only
  -- What the entry answers is dealt with, so only what the request has come to matters from
  -- here.
  generalize Guard.afterEntry { g with entry := (g.entry.request client).1 } client access
    (g.entry.request client).2 = after at hafter hholding hwaiting
  obtain ⟨after, progress⟩ := after
  simp only at hafter hholding hwaiting
  cases progress with
  | granted =>
    refine conserves_of_queueUp access .granted ?_ h.distinct hn ?_
    · simp only [hholding]
      exact ⟨hafter.counted, hafter.entry, hafter.exclusion, hafter.entering, hafter.excluding⟩
    · simp only [hwaiting]
      exact .refl _
  | failed =>
    refine conserves_of_queueUp access .failed ?_ h.distinct hn ?_
    · simp only [hholding]
      exact hafter
    · simp only [hwaiting]
      exact .refl _
  | waiting stage =>
    refine conserves_of_queueUp access (.waiting stage) ?_ h.distinct hn ?_
    · simp only [hholding]
      exact ⟨hafter.counted, hafter.entry, hafter.exclusion, hafter.entering, hafter.excluding⟩
    · simp only [hwaiting]
      exact .refl _

variable [DecidableEq τ]

/-- A look at a request among others. -/
theorem Whole.advance {r : Request τ} {front back : List (Request τ)}
    (h : g.Whole holding (clientsAt .entry (front ++ r :: back))
      (clientsAt .exclusion (front ++ r :: back)) 0 0)
    (hn : ∀ other ∈ front ++ back, other.client ≠ r.client) :
    (g.advance r).1.Whole (letIn holding r.client r.access (g.advance r).2)
      (if (g.advance r).2 = .waiting .entry then r.client :: clientsAt .entry (front ++ back)
        else clientsAt .entry (front ++ back))
      (if (g.advance r).2 = .waiting .exclusion then
        r.client :: clientsAt .exclusion (front ++ back)
        else clientsAt .exclusion (front ++ back)) 0 0 := by
  have hperm (stage : Stage) := clientsAt_insert stage front back r
  have hsplit := h.congr (hperm .entry) (hperm .exclusion)
  have hentry := hsplit.entry
  have hexclusion := hsplit.exclusion
  have hentering := hsplit.entering
  have hexcluding := hsplit.excluding
  unfold Guard.advance
  split
  next hs =>
    simp only [hs, reduceCtorEq, if_true, if_false] at hentry hentering hexcluding
    have hspare := Semaphore.spare_poll g.entry r.client
    have hasked : Whole { g with entry := (g.entry.poll r.client).1 } holding
        (if (g.entry.poll r.client).2 = .waiting then r.client :: clientsAt .entry (front ++ back)
          else clientsAt .entry (front ++ back)) (clientsAt .exclusion (front ++ back))
        (if (g.entry.poll r.client).2 = .granted then 1 else 0) 0 :=
      ⟨h.counted, by simp only; omega, hexclusion, hentering.poll, hexcluding⟩
    exact hasked.afterEntry (not_mem_clientsAt hn _) r.access
  next hs =>
    simp only [hs, reduceCtorEq, if_true, if_false, List.length_cons] at hentry hentering hexcluding
    have hspare := Semaphore.spare_poll g.exclusion r.client
    -- A request that waits at the exclusion has the entry's permit with it.
    have hasked : Whole { g with exclusion := (g.exclusion.poll r.client).1 } holding
        (clientsAt .entry (front ++ back))
        (if (g.exclusion.poll r.client).2 = .waiting then
          r.client :: clientsAt .exclusion (front ++ back)
          else clientsAt .exclusion (front ++ back))
        (if (g.exclusion.poll r.client).2 = .waiting then 0 else 1)
        (if (g.exclusion.poll r.client).2 = .granted then 1 else 0) := by
      refine ⟨h.counted, ?_, ?_, hentering, hexcluding.poll⟩
      · split
        next =>
          simp only [List.length_cons]
          omega
        next =>
          simp only
          omega
      · simp only
        omega
    exact hasked.afterExclusion r.access

/-- A request that moves on among others. -/
theorem perm_map_stage {r : Request τ} {front back : List (Request τ)}
    (hn : ∀ other ∈ front ++ back, other.client ≠ r.client) (stage : Stage) :
    ((front ++ r :: back).map fun other =>
      if other.client = r.client then { other with stage } else other).Perm
      (queueUp (front ++ back) r.client r.access (.waiting stage)) := by
  have hsame : (front ++ back).map (fun other =>
      if other.client = r.client then { other with stage } else other) = front ++ back :=
    (List.map_congr_left fun other ho => if_neg (hn other ho)).trans (List.map_id _)
  rw [List.map_append, List.map_cons, if_pos rfl]
  refine List.perm_middle.trans ?_
  rw [← List.map_append, hsame]
  exact (List.perm_append_singleton _ _).symm

/-- A client looks at its request. -/
theorem Conserves.poll (h : g.Conserves) (client : τ) : (g.poll client).1.Conserves := by
  unfold Guard.poll
  cases hf : g.find? client with
  | none => exact h
  | some r =>
    obtain ⟨hm, rfl⟩ := mem_of_find? hf
    obtain ⟨front, back, hsplit, hrest, hn⟩ := exists_filter_eq Request.client h.distinct hm
    have hwhole := h.whole
    have hdistinct := h.distinct
    rw [hsplit] at hwhole hdistinct
    have hothers : ((front ++ back).map (·.client)).Nodup := by
      refine hdistinct.sublist (List.Sublist.map _ ?_)
      exact (List.Sublist.refl front).append (List.sublist_cons_self r back)
    have hafter := hwhole.advance hn
    have hholding := holding_advance g r
    have hwaiting := waiting_advance g r
    simp only
    generalize g.advance r = after at hafter hholding hwaiting
    obtain ⟨after, progress⟩ := after
    simp only at hafter hholding hwaiting
    -- Without the request those that wait are the ones in front of it and behind it.
    have hforget : (after.forget r.client).waiting = front ++ back := by
      rw [forget, hwaiting]
      exact hrest
    cases progress with
    | granted =>
      refine conserves_of_queueUp r.access .granted ?_ hothers hn ?_
      · simp only [forget, hholding]
        exact ⟨hafter.counted, hafter.entry, hafter.exclusion, hafter.entering, hafter.excluding⟩
      · simp only [hforget]
        exact .refl _
    | failed =>
      refine conserves_of_queueUp r.access .failed ?_ hothers hn ?_
      · simp only [forget, hholding]
        exact ⟨hafter.counted, hafter.entry, hafter.exclusion, hafter.entering, hafter.excluding⟩
      · simp only [hforget]
        exact .refl _
    | waiting stage =>
      refine conserves_of_queueUp r.access (.waiting stage) ?_ hothers hn ?_
      · simp only [hholding]
        exact ⟨hafter.counted, hafter.entry, hafter.exclusion, hafter.entering, hafter.excluding⟩
      · simp only [hwaiting, hsplit]
        exact perm_map_stage hn stage

/-- A client withdraws its request. -/
theorem Conserves.cancel (h : g.Conserves) (client : τ) : (g.cancel client).Conserves := by
  unfold Guard.cancel
  cases hf : g.find? client with
  | none => exact h
  | some r =>
    obtain ⟨hm, rfl⟩ := mem_of_find? hf
    obtain ⟨front, back, hsplit, hrest, hn⟩ := exists_filter_eq Request.client h.distinct hm
    have hwhole := h.whole
    have hdistinct := h.distinct
    rw [hsplit] at hwhole hdistinct
    have hothers : (((g.forget r.client).waiting).map (·.client)).Nodup :=
      h.distinct.sublist (List.filter_sublist.map _)
    have hforget : (g.forget r.client).waiting = front ++ back := hrest
    have hperm (stage : Stage) := clientsAt_insert stage front back r
    have hgone := hwhole.congr (hperm .entry) (hperm .exclusion)
    have hentry := hgone.entry
    have hentering := hgone.entering
    have hexcluding := hgone.excluding
    simp only
    cases hs : r.stage with
    | entry =>
      simp only [hs, reduceCtorEq, if_true, if_false] at hentry hentering hexcluding
      refine ⟨⟨h.whole.counted, ?_, h.whole.exclusion, ?_, ?_⟩, hothers⟩
      · simp only [forget, hrest, Semaphore.spare_cancel]
        exact hentry
      · simp only [hforget]
        exact hentering.cancel
      · simp only [hforget]
        exact hexcluding
    | exclusion =>
      simp only [hs, reduceCtorEq, if_true, if_false] at hentry hentering hexcluding
      refine ⟨⟨h.whole.counted, ?_, ?_, ?_, ?_⟩, hothers⟩
      -- A request at the exclusion has the entry's permit, which it gives back.
      · simp only [forget, hrest, Semaphore.spare_release]
        simp only [List.length_cons] at hentry
        omega
      · simp only [forget, Semaphore.spare_cancel]
        exact h.whole.exclusion
      · simp only [hforget]
        exact hentering.release
      · simp only [hforget]
        exact hexcluding.cancel

/-- A client gives access back. -/
theorem Conserves.release (h : g.Conserves) (hd : (g.holding.map (·.client)).Nodup) (client : τ) :
    (g.release client).Conserves := by
  have hcounted := h.whole.counted
  have hentry := h.whole.entry
  have hexclusion := h.whole.exclusion
  cases hf : g.held? client with
  | none =>
    have hsame : g.release client = g := by simp only [Guard.release, hf]
    rw [hsame]
    exact h
  | some access =>
    obtain ⟨hold, hm, rfl, rfl⟩ := mem_of_held? hf
    obtain ⟨front, back, hsplit, hrest, _⟩ := exists_filter_eq Hold.client hd hm
    rw [hsplit, readersIn_insert] at hcounted
    rw [hsplit, writersIn_insert] at hentry hexclusion
    unfold Guard.release
    simp only [hf]
    cases ha : hold.access with
    | read =>
      simp only [ha, reduceCtorEq, if_true, if_false] at hcounted hentry hexclusion
      refine ⟨⟨?_, ?_, ?_, h.whole.entering, ?_⟩, h.distinct⟩
      · simp only [uncountReader, hrest]
        omega
      · simp only [uncountReader, hrest]
        exact hentry
      · simp only [uncountReader, hrest]
        split
        -- The last reader gives the exclusion back, whose permit is spare again.
        · rw [Semaphore.spare_release]
          omega
        · omega
      · simp only [uncountReader]
        split
        · exact h.whole.excluding.release
        · exact h.whole.excluding
    | write =>
      simp only [ha, reduceCtorEq, if_true, if_false] at hcounted hentry hexclusion
      refine ⟨⟨?_, ?_, ?_, h.whole.entering.release, h.whole.excluding.release⟩, h.distinct⟩
      · simp only [hrest]
        exact hcounted
      · simp only [hrest, Semaphore.spare_release]
        omega
      · simp only [hrest, Semaphore.spare_release]
        omega

omit [DecidableEq τ] in
/-- Nobody stands at the semaphores of a guard but those who wait for it. -/
theorem Conserves.not_mem_clients (h : g.Conserves) (hn : ∀ r ∈ g.waiting, r.client ≠ client) :
    client ∉ g.entry.clients ∧ client ∉ g.exclusion.clients :=
  ⟨fun hm => not_mem_clientsAt hn _ (h.whole.entering.subset hm),
    fun hm => not_mem_clientsAt hn _ (h.whole.excluding.subset hm)⟩

omit [DecidableEq τ] in
/-- An open guard with nobody around is as good as new. -/
theorem Conserves.eq_new (h : g.Conserves) (hc : g.Closes false) (hw : g.waiting = [])
    (hh : g.holding = []) : g = new := by
  obtain ⟨entry, exclusion, readers, waiting, holding⟩ := g
  obtain rfl : waiting = [] := hw
  obtain rfl : holding = [] := hh
  obtain rfl : readers = 0 := h.whole.counted
  have hentry : entry.spare = 1 := h.whole.entry
  have hexclusion : exclusion.spare = 1 := h.whole.exclusion
  have hfresh := Semaphore.Attends.eq_ofPermits h.whole.entering hc.entry
  have hfree := Semaphore.Attends.eq_ofPermits h.whole.excluding hc.exclusion
  simp only [hentry, hexclusion] at hfresh hfree
  rw [hfresh, hfree]
  rfl

end Guard

end EmbeddedSql.Lock
