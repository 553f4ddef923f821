import EmbeddedSql.Proofs.Lock.Conservation

/-!
# The line at a guard

Those who wait for a guard stand in one line, in the order in which they came. At an
open guard the one at the exclusion, if there is one, stands first, and behind come
those at the entry as the entry serves them. Whatever is done at a guard takes somebody
out of the line or adds somebody at its end, so nobody overtakes anybody else, and only
the first of the line is let in.
-/

namespace EmbeddedSql.Lock

variable {τ : Type}

/-! ## The line at a semaphore -/

namespace Semaphore

/-- The clients that wait, those with a permit to pick up first. -/
def line (s : Semaphore τ) : List τ :=
  s.assigned ++ s.queue

/-- No permit is free while somebody is in the queue. -/
def Prompt (s : Semaphore τ) : Prop :=
  0 < s.permits → s.queue = []

variable {s : Semaphore τ} {client : τ} {list : List τ}

/-- The line of a semaphore has the clients that wait, each as often. -/
theorem perm_line_clients (s : Semaphore τ) : s.line.Perm s.clients :=
  List.perm_append_comm

/-- Whoever stands in line is one of those who wait. -/
theorem Attends.line_subset (h : s.Attends list) : s.line ⊆ list :=
  List.Subset.trans (perm_line_clients s).subset h.subset

/-- A permit that is given back leaves the line as it is: it goes to the first in the queue,
who moves up to those with a permit. -/
theorem line_release (s : Semaphore τ) : s.release.line = s.line := by
  unfold release line
  split
  next first rest hq => simp [hq]
  next hq => simp [hq]

/-- A permit that is given back is free only if nobody is in the queue. -/
theorem Prompt.release (h : s.Prompt) : s.release.Prompt := by
  unfold Semaphore.release Prompt
  split
  next first rest hq =>
    intro hp
    rw [h hp] at hq
    cases hq
  next => exact fun _ => rfl

/-- A client that asks joins the end of the line, unless it is served at once. -/
theorem line_request (s : Semaphore τ) (client : τ) :
    (s.request client).1.line =
      s.line ++ if (s.request client).2 = .waiting then [client] else [] := by
  unfold request
  split
  · simp
  · split
    · simp [line]
    · simp [line]

/-- After a request no permit is free while somebody is in the queue. -/
theorem Prompt.request (h : s.Prompt) (client : τ) : (s.request client).1.Prompt := by
  unfold Semaphore.request Prompt
  split
  · exact h
  · split
    next n hp => exact fun _ => h (by omega)
    next => exact fun hp => absurd hp (Nat.lt_irrefl 0)

/-- Only at a semaphore where nobody waits a client is served at once. -/
theorem Prompt.line_of_request_granted (h : s.Prompt) (hs : s.spare ≤ 1)
    (hg : (s.request client).2 = .granted) : s.line = [] ∧ s.spare = 1 := by
  unfold Semaphore.request at hg
  split at hg
  · cases hg
  · split at hg
    next n hp =>
      rw [spare] at hs
      have hassigned : s.assigned = [] := List.length_eq_zero_iff.mp (by omega)
      refine ⟨?_, ?_⟩
      · rw [line, hassigned, h (by omega), List.append_nil]
      · rw [spare]
        omega
    next => cases hg

/-- A client is served at once where nobody waits and a permit is spare. -/
theorem request_granted_of_line (ho : s.closed = false) (hl : s.line = []) (hs : 0 < s.spare)
    (client : τ) : (s.request client).2 = .granted := by
  have hassigned := (List.append_eq_nil_iff.mp hl).1
  rw [spare, hassigned, List.length_nil, Nat.add_zero] at hs
  simp only [request, ho, Bool.false_eq_true, if_false]
  split
  next => rfl
  next hp =>
    rw [hp] at hs
    exact absurd hs (Nat.lt_irrefl 0)

variable [DecidableEq τ]

/-- A client that withdraws leaves the line. -/
theorem line_cancel (s : Semaphore τ) (client : τ) :
    (s.cancel client).line = s.line.erase client := by
  unfold cancel
  split
  next hm => rw [line_release, line, line, List.erase_append_left _ hm]
  next hm => rw [line, line, List.erase_append_right _ hm]

/-- After a withdrawal no permit is free while somebody is in the queue. -/
theorem Prompt.cancel (h : s.Prompt) (client : τ) : (s.cancel client).Prompt := by
  unfold Semaphore.cancel
  split
  · exact Prompt.release h
  · intro hp
    rw [h hp, List.erase_nil]

/-- A client that picks its permit up leaves the line. -/
theorem line_poll (ho : s.closed = false) (client : τ) :
    (s.poll client).1.line =
      if (s.poll client).2 = .granted then s.line.erase client else s.line := by
  simp only [poll, ho, Bool.false_eq_true, if_false]
  split
  next hm => simp [line, List.erase_append_left _ hm]
  next => simp

/-- After a look no permit is free while somebody is in the queue. -/
theorem Prompt.poll (h : s.Prompt) (client : τ) : (s.poll client).1.Prompt := by
  unfold Semaphore.poll
  split
  · exact h.cancel client
  · split
    · exact h
    · exact h

/-- Only the first of the line picks the permit up. -/
theorem line_of_poll_granted (hs : s.spare ≤ 1) (hg : (s.poll client).2 = .granted) :
    ∃ rest, s.line = client :: rest ∧ s.spare = 1 := by
  unfold poll at hg
  split at hg
  · cases hg
  · split at hg
    next hm =>
      have hpos := List.length_pos_of_mem hm
      rw [spare] at hs
      obtain ⟨only, hsingle⟩ := List.length_eq_one_iff.mp (by omega : s.assigned.length = 1)
      rw [hsingle, List.mem_singleton] at hm
      refine ⟨s.queue, ?_, ?_⟩
      · rw [line, hsingle, hm]
        rfl
      · rw [spare]
        omega
    next => cases hg

/-- The first of the line picks the permit up if it is spare. -/
theorem Prompt.poll_granted (h : s.Prompt) (ho : s.closed = false) (hs : s.spare = 1)
    {rest : List τ} (hl : s.line = client :: rest) : (s.poll client).2 = .granted := by
  have hassigned : s.assigned ≠ [] := by
    intro hnone
    rw [spare, hnone, List.length_nil] at hs
    rw [line, hnone, h (by omega)] at hl
    cases hl
  obtain ⟨first, others, hsplit⟩ := List.exists_cons_of_ne_nil hassigned
  have hfirst : first = client := by
    rw [line, hsplit] at hl
    exact (List.cons.inj hl).1
  have hm : client ∈ s.assigned := by
    rw [hsplit, hfirst]
    exact List.mem_cons_self
  simp only [Semaphore.poll, ho, Bool.false_eq_true, if_false, if_pos hm]

/-- What can be done at a semaphore for a client. -/
inductive Acts (client : τ) (s : Semaphore τ) : Semaphore τ → Prop where
  /-- Nothing. -/
  | rests : Acts client s s
  /-- It asks for a permit. -/
  | asks : Acts client s (s.request client).1
  /-- It looks at its request. -/
  | looks : Acts client s (s.poll client).1
  /-- It withdraws its request. -/
  | withdraws : Acts client s (s.cancel client)
  /-- It gives a permit back. -/
  | leaves : Acts client s s.release

/-- Whatever is done at a semaphore for a client, no permit is free while somebody is in the
queue. -/
theorem Acts.prompt {s' : Semaphore τ} (h : s.Acts client s') (hp : s.Prompt) : s'.Prompt := by
  cases h with
  | rests => exact hp
  | asks => exact hp.request client
  | looks => exact hp.poll client
  | withdraws => exact hp.cancel client
  | leaves => exact hp.release

/-- Everybody else stands in line as before. -/
theorem Acts.mem_line_iff {s' : Semaphore τ} (h : s.Acts client s') (ho : s.closed = false)
    {other : τ} (hne : other ≠ client) : other ∈ s'.line ↔ other ∈ s.line := by
  cases h with
  | rests => rfl
  | asks =>
    rw [line_request]
    split
    · simp [hne]
    · simp
  | looks =>
    rw [line_poll ho]
    split
    · exact List.mem_erase_of_ne hne
    · rfl
  | withdraws =>
    rw [line_cancel]
    exact List.mem_erase_of_ne hne
  | leaves => rw [line_release]

end Semaphore

/-! ## The line at a guard -/

/-- Whether a request waits on. -/
def Progress.stays : Progress → Bool
  | .waiting _ => true
  | _ => false

namespace Guard

/-- The clients that wait, in the order in which they came. -/
def line (g : Guard τ) : List τ :=
  g.waiting.map (·.client)

/-- A list is the line at the exclusion followed by the line at the entry, and neither
semaphore has a free permit while somebody is in its queue. -/
structure LinedAs (g : Guard τ) (list : List τ) : Prop where
  /-- The one at the exclusion stands first. -/
  split : list = g.exclusion.line ++ g.entry.line
  /-- The entry gives its permit away. -/
  entry : g.entry.Prompt
  /-- The exclusion gives its permit away. -/
  exclusion : g.exclusion.Prompt

/-- Those who wait for a guard stand at its semaphores in the order in which they
came. -/
def Lined (g : Guard τ) : Prop :=
  g.LinedAs g.line

/-- Nobody stands in line at a new guard. -/
theorem lined_new : (new : Guard τ).Lined :=
  ⟨rfl, fun _ => rfl, fun _ => rfl⟩

variable {g : Guard τ} {client : τ} {list : List τ}

/-! ### What the permits say about the line -/

/-- At most the one permit of the entry is spare. -/
theorem Conserves.spare_entry (h : g.Conserves) : g.entry.spare ≤ 1 := by
  have hentry := h.whole.entry
  omega

/-- At most the one permit of the exclusion is spare. -/
theorem Conserves.spare_exclusion (h : g.Conserves) : g.exclusion.spare ≤ 1 := by
  have hexclusion := h.whole.exclusion
  omega

/-- While the entry's permit is spare, no writer is inside and nobody is at the
exclusion. -/
theorem Conserves.of_spare_entry (h : g.Conserves) (hs : g.entry.spare = 1) :
    writersIn g.holding = 0 ∧ g.exclusion.line = [] := by
  have hentry := h.whole.entry
  have hnobody : clientsAt .exclusion g.waiting = [] := List.length_eq_zero_iff.mp (by omega)
  have hsubset := h.whole.excluding.line_subset
  rw [hnobody] at hsubset
  exact ⟨by omega, List.subset_nil.mp hsubset⟩

/-- Two who wait at different semaphores are two. -/
theorem Conserves.not_mem_of_stage (h : g.Conserves) {r : Request τ} (hr : r ∈ g.waiting)
    {stage : Stage} (hne : r.stage ≠ stage) : r.client ∉ clientsAt stage g.waiting := by
  intro hm
  obtain ⟨other, ho, he⟩ := List.mem_map.mp hm
  obtain ⟨hw, hstage⟩ := List.mem_filter.mp ho
  have hsame : other = r := List.inj_on_of_nodup_map h.distinct hw hr he
  rw [hsame] at hstage
  exact hne (of_decide_eq_true hstage)

/-- Whoever waits at the entry stands in line there. -/
theorem Lined.mem_entry_line (h : g.Lined) (hc : g.Conserves) {r : Request τ}
    (hr : r ∈ g.waiting) (hs : r.stage = .entry) :
    r.client ∉ g.exclusion.line ∧ r.client ∈ g.entry.line := by
  have hn : r.client ∉ g.exclusion.line := fun hm =>
    hc.not_mem_of_stage hr (by simp [hs]) (hc.whole.excluding.line_subset hm)
  have hline : r.client ∈ g.exclusion.line ++ g.entry.line := h.split ▸ List.mem_map_of_mem hr
  exact ⟨hn, (List.mem_append.mp hline).resolve_left hn⟩

/-- Whoever waits at the exclusion stands in line there. -/
theorem Lined.mem_exclusion_line (h : g.Lined) (hc : g.Conserves) {r : Request τ}
    (hr : r ∈ g.waiting) (hs : r.stage = .exclusion) : r.client ∈ g.exclusion.line := by
  have hn : r.client ∉ g.entry.line := fun hm =>
    hc.not_mem_of_stage hr (by simp [hs]) (hc.whole.entering.line_subset hm)
  have hline : r.client ∈ g.exclusion.line ++ g.entry.line := h.split ▸ List.mem_map_of_mem hr
  exact (List.mem_append.mp hline).resolve_right hn

/-! ### Whoever passes a semaphore -/

/-- Only who has got the exclusion's permit is let in from there. -/
theorem granted_of_afterExclusion {access : Access} {answer : Answer}
    (h : (g.afterExclusion access answer).2 = .granted) : answer = .granted := by
  cases answer with
  | granted => rfl
  | failed => cases h
  | waiting => cases h

/-- A client that gets the exclusion is admitted. -/
theorem afterExclusion_granted (g : Guard τ) (access : Access) :
    (g.afterExclusion access .granted).2 = .granted := by
  cases access with
  | read => rfl
  | write => rfl

/-- Only who has got the entry's permit is let in from there. -/
theorem granted_of_afterEntry {access : Access} {answer : Answer}
    (h : (g.afterEntry client access answer).2 = .granted) : answer = .granted := by
  cases answer with
  | granted => rfl
  | failed => cases h
  | waiting => cases h

/-- The line stays when a reader gives the entry back. -/
theorem LinedAs.countReader (h : g.LinedAs list) : g.countReader.LinedAs list where
  split := by
    rw [h.split]
    simp only [Guard.countReader, Semaphore.line_release]
  entry := h.entry.release
  exclusion := h.exclusion

/-- The line stays whatever the exclusion answers. -/
theorem LinedAs.afterExclusion (h : g.LinedAs list) (access : Access) (answer : Answer) :
    (g.afterExclusion access answer).1.LinedAs list := by
  cases answer with
  | waiting => exact h
  | failed =>
    refine ⟨?_, h.entry.release, h.exclusion⟩
    rw [h.split]
    simp only [Guard.afterExclusion, Semaphore.line_release]
  | granted =>
    cases access with
    | read => exact h.countReader
    | write => exact h

/-- Whoever has passed the entry stands in front of all others, if anywhere. -/
theorem LinedAs.afterEntry (h : g.LinedAs list) (hx : g.exclusion.line = [])
    (ho : g.exclusion.closed = false) (client : τ) (access : Access) :
    (g.afterEntry client access .granted).1.LinedAs
      (bif (g.afterEntry client access .granted).2.stays then client :: list else list) := by
  simp only [Guard.afterEntry]
  split
  · exact h.countReader
  · have hsplit := h.split
    have hline := Semaphore.line_request g.exclusion client
    rw [hx, List.nil_append] at hsplit hline
    have hasked : ∀ list', list' = (g.exclusion.request client).1.line ++ g.entry.line →
        LinedAs { g with exclusion := (g.exclusion.request client).1 } list' :=
      fun list' hl => ⟨hl, h.entry, h.exclusion.request client⟩
    cases ha : (g.exclusion.request client).2 with
    | failed => exact absurd ha (Semaphore.request_ne_failed ho client)
    | granted =>
      rw [ha] at hline
      have hafter := (hasked list (by rw [hline, hsplit]; rfl)).afterExclusion access .granted
      cases access with
      | read => exact hafter
      | write => exact hafter
    | waiting =>
      rw [ha] at hline
      exact hasked (client :: list) (by rw [hline, hsplit]; rfl)

/-! ### Asking -/

/-- What a request comes to is told by the entry. -/
theorem request_snd (g : Guard τ) (client : τ) (access : Access) :
    (g.request client access).2 =
      (afterEntry { g with entry := (g.entry.request client).1 } client access
        (g.entry.request client).2).2 := by
  unfold request
  simp only
  split
  next hp => exact hp.symm
  next hp => exact hp.symm
  next hp => exact hp.symm

/-- A client that asks joins the end of the line, unless it is told at once. -/
theorem line_request (g : Guard τ) (client : τ) (access : Access) :
    (g.request client access).1.line =
      bif (g.request client access).2.stays then g.line ++ [client] else g.line := by
  have hw := waiting_afterEntry { g with entry := (g.entry.request client).1 } client access
    (g.entry.request client).2
  rw [request_snd]
  unfold request line
  simp only
  split
  next hp => simp [hp, hw, Progress.stays]
  next hp => simp [hp, hw, Progress.stays]
  next stage hp => simp [hp, hw, Progress.stays]

/-- A request leaves the semaphores as the entry has left them. -/
theorem LinedAs.request {access : Access}
    (h : (Guard.afterEntry { g with entry := (g.entry.request client).1 } client access
      (g.entry.request client).2).1.LinedAs list) : (g.request client access).1.LinedAs list := by
  unfold Guard.request
  simp only
  split
  · exact ⟨h.split, h.entry, h.exclusion⟩
  · exact h
  · exact ⟨h.split, h.entry, h.exclusion⟩

/-- At an open guard with a line nobody is let in who has only come. -/
theorem Lined.line_of_request_granted (h : g.Lined) (hc : g.Conserves) {access : Access}
    (hg : (g.request client access).2 = .granted) : g.line = [] := by
  rw [request_snd] at hg
  have ha := granted_of_afterEntry hg
  obtain ⟨hentry, hs⟩ := h.entry.line_of_request_granted hc.spare_entry ha
  have hsplit := h.split
  rw [hentry, (hc.of_spare_entry hs).2] at hsplit
  exact hsplit

/-- Those who wait stand in line after a request at an open guard. -/
theorem Lined.request (h : g.Lined) (hc : g.Conserves) (ho : g.Closes false) (client : τ)
    (access : Access) : (g.request client access).1.Lined := by
  have hprompt := h.entry.request client
  have hline := Semaphore.line_request g.entry client
  rw [Lined, line_request, request_snd]
  refine LinedAs.request ?_
  cases ha : (g.entry.request client).2 with
  | failed => exact absurd ha (Semaphore.request_ne_failed ho.entry client)
  | waiting =>
    rw [ha] at hline
    refine ⟨?_, hprompt, h.exclusion⟩
    simp only [Guard.afterEntry, hline, Progress.stays, if_true, cond_true, h.split,
      List.append_assoc]
  | granted =>
    obtain ⟨hentry, hs⟩ := h.entry.line_of_request_granted hc.spare_entry ha
    have hx := (hc.of_spare_entry hs).2
    have hnobody : g.line = [] := by
      rw [h.split, hentry, hx]
      rfl
    rw [ha, hentry] at hline
    have hpassed : LinedAs { g with entry := (g.entry.request client).1 } [] :=
      ⟨by simp only [hx, hline]; rfl, hprompt, h.exclusion⟩
    rw [hnobody, List.nil_append]
    exact hpassed.afterEntry hx ho.exclusion client access

/-! ### Looking -/

variable [DecidableEq τ]

/-- Whoever stands in line has a request. -/
theorem exists_find?_of_mem_line (hm : client ∈ g.line) :
    ∃ r ∈ g.waiting, r.client = client ∧ g.find? client = some r := by
  obtain ⟨r, hr, he⟩ := List.mem_map.mp hm
  cases hf : g.find? client with
  | none => exact absurd (decide_eq_true he) (List.find?_eq_none.mp hf r hr)
  | some found =>
    obtain ⟨hfound, hclient⟩ := mem_of_find? hf
    exact ⟨found, hfound, hclient, rfl⟩

/-- A client that is told something leaves the line. -/
theorem line_poll {progress : Progress} (hp : (g.poll client).2 = some progress) :
    (g.poll client).1.line =
      bif progress.stays then g.line else g.line.filter (· ≠ client) := by
  have hgone : ∀ after : Guard τ, after.waiting = g.waiting →
      (after.forget client).line = g.line.filter (· ≠ client) := by
    intro after hw
    rw [line, forget, hw, line, List.filter_map]
    rfl
  unfold poll at hp ⊢
  cases hf : g.find? client with
  | none =>
    rw [hf] at hp
    cases hp
  | some r =>
    have hw := waiting_advance g r
    simp only [hf] at hp ⊢
    generalize g.advance r = after at hp hw
    obtain ⟨after, came⟩ := after
    simp only at hp hw
    cases came with
    | granted =>
      cases hp
      exact hgone after hw
    | failed =>
      cases hp
      exact hgone after hw
    | waiting stage =>
      cases hp
      simp only [line, Progress.stays, cond_true, hw, List.map_map]
      refine List.map_congr_left fun r _ => ?_
      simp only [Function.comp_apply]
      split
      · rfl
      · rfl

/-- Only who stands in line is told something. -/
theorem mem_line_of_poll {progress : Progress} (hp : (g.poll client).2 = some progress) :
    client ∈ g.line := by
  unfold poll at hp
  cases hf : g.find? client with
  | none =>
    rw [hf] at hp
    cases hp
  | some r =>
    obtain ⟨hr, rfl⟩ := mem_of_find? hf
    exact List.mem_map_of_mem hr

/-- A guard that was looked at has its semaphores as the look has left them. -/
theorem LinedAs.poll {r : Request τ} (hf : g.find? client = some r)
    (h : (g.advance r).1.LinedAs list) : (g.poll client).1.LinedAs list := by
  simp only [Guard.poll, hf]
  split
  · exact ⟨h.split, h.entry, h.exclusion⟩
  · exact ⟨h.split, h.entry, h.exclusion⟩
  · exact ⟨h.split, h.entry, h.exclusion⟩

/-- A look at the request of a client who waits reports what the request came to. -/
theorem poll_snd {r : Request τ} (hf : g.find? client = some r) :
    (g.poll client).2 = some (g.advance r).2 := by
  simp only [poll, hf]
  split
  next hp => rw [hp]
  next hp => rw [hp]
  next hp => rw [hp]

/-- The first of a line leaves it. -/
theorem filter_ne_of_nodup {rest : List τ} (hd : (client :: rest).Nodup) :
    (client :: rest).filter (· ≠ client) = rest := by
  rw [List.filter_cons_of_neg (by simp), List.filter_eq_self]
  intro other hm
  exact decide_eq_true fun he => (List.nodup_cons.mp hd).1 (he ▸ hm)

/-- Whoever is let past the entry after waiting there is the first of the line. -/
theorem Lined.line_of_entry (h : g.Lined) (hc : g.Conserves)
    (hg : (g.entry.poll client).2 = .granted) :
    ∃ rest, g.line = client :: rest ∧ g.entry.line = client :: rest ∧ g.exclusion.line = [] := by
  obtain ⟨rest, hentry, hs⟩ := Semaphore.line_of_poll_granted hc.spare_entry hg
  have hx := (hc.of_spare_entry hs).2
  have hsplit := h.split
  rw [hentry, hx, List.nil_append] at hsplit
  exact ⟨rest, hsplit, hentry, hx⟩

/-- Whoever gets the exclusion after waiting for it is the first of the line. -/
theorem Lined.line_of_exclusion (h : g.Lined) (hc : g.Conserves)
    (hg : (g.exclusion.poll client).2 = .granted) :
    ∃ rest, g.line = client :: (rest ++ g.entry.line) ∧ g.exclusion.line = client :: rest := by
  obtain ⟨rest, hexclusion, _⟩ := Semaphore.line_of_poll_granted hc.spare_exclusion hg
  have hsplit := h.split
  rw [hexclusion] at hsplit
  exact ⟨rest, hsplit, hexclusion⟩

/-- Only the first of the line is let in. -/
theorem Lined.line_of_poll_granted (h : g.Lined) (hc : g.Conserves)
    (hg : (g.poll client).2 = some .granted) : ∃ rest, g.line = client :: rest := by
  cases hf : g.find? client with
  | none =>
    simp only [Guard.poll, hf] at hg
    cases hg
  | some r =>
    rw [poll_snd hf, Option.some.injEq] at hg
    obtain ⟨_, rfl⟩ := mem_of_find? hf
    unfold advance at hg
    split at hg
    · obtain ⟨rest, hline, _⟩ := h.line_of_entry hc (granted_of_afterEntry hg)
      exact ⟨rest, hline⟩
    · obtain ⟨rest, hline, _⟩ := h.line_of_exclusion hc (granted_of_afterExclusion hg)
      exact ⟨_, hline⟩

/-- A look at a request leaves the line as it is, or the first one has left it. -/
theorem Lined.advance (h : g.Lined) (hc : g.Conserves) (ho : g.Closes false) (r : Request τ) :
    (g.advance r).1.LinedAs
      (bif (g.advance r).2.stays then g.line else g.line.filter (· ≠ r.client)) := by
  have hd : g.line.Nodup := hc.distinct
  have hentry := Semaphore.line_poll ho.entry r.client
  have hexclusion := Semaphore.line_poll ho.exclusion r.client
  unfold Guard.advance
  split
  · simp only
    cases ha : (g.entry.poll r.client).2 with
    | failed => exact absurd ha (Semaphore.poll_ne_failed ho.entry r.client)
    | waiting =>
      rw [ha] at hentry
      exact ⟨h.split.trans (congrArg _ hentry.symm), h.entry.poll r.client, h.exclusion⟩
    | granted =>
      -- The entry's permit is with the one that passes, so nobody waits at the exclusion.
      obtain ⟨rest, hline, hfirst, hx⟩ := h.line_of_entry hc ha
      rw [ha, if_pos rfl, hfirst, List.erase_cons_head] at hentry
      have hpassed : LinedAs { g with entry := (g.entry.poll r.client).1 } rest :=
        ⟨by simp only [hx, hentry, List.nil_append], h.entry.poll r.client, h.exclusion⟩
      rw [hline] at hd ⊢
      rw [filter_ne_of_nodup hd]
      exact hpassed.afterEntry hx ho.exclusion r.client r.access
  · simp only
    cases ha : (g.exclusion.poll r.client).2 with
    | failed => exact absurd ha (Semaphore.poll_ne_failed ho.exclusion r.client)
    | waiting =>
      rw [ha] at hexclusion
      exact ⟨h.split.trans (congrArg (· ++ g.entry.line) hexclusion.symm), h.entry,
        h.exclusion.poll r.client⟩
    | granted =>
      -- Whoever waits at the exclusion stands in front of all who wait at the entry.
      obtain ⟨rest, hline, hfirst⟩ := h.line_of_exclusion hc ha
      rw [ha, if_pos rfl, hfirst, List.erase_cons_head] at hexclusion
      have hpassed : LinedAs { g with exclusion := (g.exclusion.poll r.client).1 }
          (rest ++ g.entry.line) :=
        ⟨by simp only [hexclusion], h.entry, h.exclusion.poll r.client⟩
      have hafter := hpassed.afterExclusion r.access .granted
      rw [hline] at hd ⊢
      rw [filter_ne_of_nodup hd]
      cases hr : r.access with
      | read =>
        rw [hr] at hafter
        exact hafter
      | write =>
        rw [hr] at hafter
        exact hafter

/-- Those who wait stand in line after a look at an open guard. -/
theorem Lined.poll (h : g.Lined) (hc : g.Conserves) (ho : g.Closes false) (client : τ) :
    (g.poll client).1.Lined := by
  cases hf : g.find? client with
  | none =>
    simp only [Guard.poll, hf]
    exact h
  | some r =>
    obtain ⟨_, rfl⟩ := mem_of_find? hf
    rw [Lined, line_poll (poll_snd hf)]
    exact LinedAs.poll hf (h.advance hc ho r)

/-! ### Leaving -/

/-- A client that withdraws leaves the line. -/
theorem line_cancel (g : Guard τ) (client : τ) :
    (g.cancel client).line = g.line.filter (· ≠ client) := by
  have hgone : (g.forget client).line = g.line.filter (· ≠ client) := by
    rw [line, forget, line, List.filter_map]
    rfl
  unfold cancel
  cases hf : g.find? client with
  | none =>
    have hnobody := List.find?_eq_none.mp hf
    refine (List.filter_eq_self.mpr fun other hm => ?_).symm
    obtain ⟨r, hr, rfl⟩ := List.mem_map.mp hm
    simpa using hnobody r hr
  | some r =>
    rw [← hgone]
    simp only
    split
    · rfl
    · rfl

/-- Whoever gives access back leaves the line as it is. -/
theorem line_release (g : Guard τ) (client : τ) : (g.release client).line = g.line := by
  rw [line, waiting_release, line]

/-- Those who wait stand in line after a withdrawal. -/
theorem Lined.cancel (h : g.Lined) (hc : g.Conserves) (client : τ) : (g.cancel client).Lined := by
  have hd : g.line.Nodup := hc.distinct
  have hleft : g.line.filter (· ≠ client) = (g.exclusion.line ++ g.entry.line).erase client := by
    rw [← h.split, hd.erase_eq_filter]
    exact List.filter_congr fun other _ => by simp [bne, beq_eq_decide]
  rw [Lined, line_cancel, hleft]
  unfold Guard.cancel
  cases hf : g.find? client with
  | none =>
    have hn : client ∉ g.line := by
      intro hm
      obtain ⟨r, _, _, hfound⟩ := exists_find?_of_mem_line hm
      rw [hf] at hfound
      cases hfound
    rw [h.split] at hn
    rw [List.erase_of_not_mem hn]
    exact ⟨rfl, h.entry, h.exclusion⟩
  | some r =>
    obtain ⟨hr, rfl⟩ := mem_of_find? hf
    simp only
    cases hs : r.stage with
    | entry =>
      refine ⟨?_, h.entry.cancel r.client, h.exclusion⟩
      rw [List.erase_append_right _ (h.mem_entry_line hc hr hs).1, ← Semaphore.line_cancel]
      rfl
    | exclusion =>
      refine ⟨?_, h.entry.release, h.exclusion.cancel r.client⟩
      rw [List.erase_append_left _ (h.mem_exclusion_line hc hr hs), ← Semaphore.line_cancel,
        ← Semaphore.line_release g.entry]
      rfl

/-- Those who wait stand in line when somebody has left. -/
theorem Lined.release (h : g.Lined) (client : τ) : (g.release client).Lined := by
  rw [Lined, line_release]
  unfold Guard.release
  split
  · exact h
  next access _ =>
    cases access with
    | read =>
      simp only [uncountReader]
      split
      · refine ⟨?_, h.entry, h.exclusion.release⟩
        rw [Semaphore.line_release]
        exact h.split
      · exact ⟨h.split, h.entry, h.exclusion⟩
    | write =>
      refine ⟨?_, h.entry.release, h.exclusion.release⟩
      rw [Semaphore.line_release, Semaphore.line_release]
      exact h.split

/-! ### What is done at a guard -/

/-- What can be done at a guard for a client. -/
inductive Acts (client : τ) (g : Guard τ) : Guard τ → Prop where
  /-- Nothing. -/
  | rests : Acts client g g
  /-- It asks for access. -/
  | asks (access : Access) : Acts client g (g.request client access).1
  /-- It looks at its request. -/
  | looks : Acts client g (g.poll client).1
  /-- It withdraws its request. -/
  | withdraws : Acts client g (g.cancel client)
  /-- It gives its access back. -/
  | leaves : Acts client g (g.release client)
  /-- It closes the guard and gives its access back. -/
  | shuts : Acts client g (g.close.release client)

namespace Acts

variable {g' : Guard τ}

/-- Somebody joins the end of the line or leaves it, or the line stays as it is. -/
theorem line (h : g.Acts client g') :
    g'.line = g.line ∨ g'.line = g.line ++ [client] ∨
      g'.line = g.line.filter (· ≠ client) := by
  cases h with
  | rests => exact .inl rfl
  | asks access =>
    rw [line_request]
    cases (g.request client access).2.stays with
    | false => exact .inl rfl
    | true => exact .inr (.inl rfl)
  | looks =>
    cases hp : (g.poll client).2 with
    | none =>
      refine .inl ?_
      unfold poll at hp ⊢
      split at hp
      · simp only
      · simp only at hp
        split at hp
        · cases hp
        · cases hp
        · cases hp
    | some progress =>
      rw [line_poll hp]
      cases progress.stays with
      | false => exact .inr (.inr rfl)
      | true => exact .inl rfl
  | withdraws => exact .inr (.inr (line_cancel g client))
  | leaves => exact .inl (line_release g client)
  | shuts => exact .inl (line_release g.close client)

/-- Everybody else stands in line as before. -/
theorem mem_line_iff (h : g.Acts client g') {other : τ} (hne : other ≠ client) :
    other ∈ g'.line ↔ other ∈ g.line := by
  rcases h.line with he | he | he
  · rw [he]
  · simp [he, hne]
  · simp [he, hne]

/-- Two others who stand in line stand there in the same order. -/
theorem sublist_line (h : g.Acts client g') {first second : τ} (hf : first ≠ client)
    (hs : second ≠ client) (hl : [first, second].Sublist g.line) :
    [first, second].Sublist g'.line := by
  rcases h.line with he | he | he
  · rw [he]
    exact hl
  · rw [he]
    exact hl.trans (List.sublist_append_left _ _)
  · have hkept : [first, second].filter (· ≠ client) = [first, second] := by simp [hf, hs]
    rw [he, ← hkept]
    exact hl.filter _

/-- A guard stays closed. -/
theorem closes (h : g.Acts client g') (hc : g.Closes true) : g'.Closes true := by
  cases h with
  | rests => exact hc
  | asks access => exact closes_request hc client access
  | looks => exact closes_poll hc client
  | withdraws => exact closes_cancel hc client
  | leaves => exact closes_release hc client
  | shuts => exact closes_release (closes_close g) client

/-- An open guard keeps its line. -/
theorem lined (h : g.Acts client g') (hl : g.Lined) (hc : g.Conserves) (ho : g.Closes false)
    (ho' : g'.entry.closed = false) : g'.Lined := by
  cases h with
  | rests => exact hl
  | asks access => exact hl.request hc ho client access
  | looks => exact hl.poll hc ho client
  | withdraws => exact hl.cancel hc client
  | leaves => exact hl.release client
  | shuts =>
    rw [(closes_release (closes_close g) client).entry] at ho'
    cases ho'

end Acts

/-! ### The first of the line -/

/-- A closed guard fails whoever looks at a request there. -/
theorem poll_of_mem_line (hc : g.Closes true) (hm : client ∈ g.line) :
    (g.poll client).2 = some .failed := by
  obtain ⟨r, _, _, hf⟩ := exists_find?_of_mem_line hm
  rw [poll_snd hf, advance_of_closed hc r]

omit [DecidableEq τ] in
/-- Nobody is at the exclusion while the first of the line waits at the entry. -/
theorem Lined.of_first_at_entry (h : g.Lined) (hc : g.Conserves) {r : Request τ}
    (hr : r ∈ g.waiting) (hs : r.stage = .entry) {rest : List τ} (hl : g.line = r.client :: rest) :
    g.exclusion.line = [] ∧ clientsAt .exclusion g.waiting = [] := by
  have hx : g.exclusion.line = [] := by
    have hsplit := h.split
    have hn := (h.mem_entry_line hc hr hs).1
    cases hx : g.exclusion.line with
    | nil => rfl
    | cons first others =>
      rw [hl, hx] at hsplit
      rw [hx] at hn
      exact absurd ((List.cons.inj hsplit).1 ▸ List.mem_cons_self) hn
  refine ⟨hx, List.eq_nil_iff_forall_not_mem.mpr fun other hm => ?_⟩
  obtain ⟨q, hq, rfl⟩ := List.mem_map.mp hm
  obtain ⟨hw, hstage⟩ := List.mem_filter.mp hq
  have hin := h.mem_exclusion_line hc hw (of_decide_eq_true hstage)
  rw [hx] at hin
  cases hin

/-- The first of the line gets past the entry unless a writer is inside. -/
theorem Lined.entry_poll_granted (h : g.Lined) (hc : g.Conserves) (ho : g.Closes false)
    {r : Request τ} (hr : r ∈ g.waiting) (hs : r.stage = .entry) {rest : List τ}
    (hl : g.line = r.client :: rest) (hw : writersIn g.holding = 0) :
    (g.entry.poll r.client).2 = .granted := by
  obtain ⟨hx, hnobody⟩ := h.of_first_at_entry hc hr hs hl
  have hentry := hc.whole.entry
  rw [hnobody, List.length_nil, hw] at hentry
  have hsplit := h.split
  rw [hl, hx, List.nil_append] at hsplit
  exact h.entry.poll_granted ho.entry (by omega) hsplit.symm

/-- The first of the line is let in when nobody is inside. -/
theorem Lined.poll_granted (h : g.Lined) (hc : g.Conserves) (ho : g.Closes false)
    (hh : g.holding = []) {rest : List τ} (hl : g.line = client :: rest) :
    (g.poll client).2 = some .granted := by
  have hexclusion := hc.whole.exclusion
  have hreaders : g.readers = 0 := by
    rw [hc.whole.counted, hh]
    rfl
  have hwriters : writersIn g.holding = 0 := by
    rw [hh]
    rfl
  rw [hreaders, hwriters] at hexclusion
  have hfree : g.exclusion.spare = 1 := by omega
  obtain ⟨r, hr, rfl, hf⟩ := exists_find?_of_mem_line (hl ▸ List.mem_cons_self : client ∈ g.line)
  rw [poll_snd hf, Option.some.injEq]
  unfold Guard.advance
  cases hs : r.stage with
  | exclusion =>
    have hm := h.mem_exclusion_line hc hr hs
    have hsplit := h.split
    obtain ⟨first, others, hx⟩ := List.exists_cons_of_ne_nil (List.ne_nil_of_mem hm)
    rw [hl, hx] at hsplit
    rw [← (List.cons.inj hsplit).1] at hx
    have hg := h.exclusion.poll_granted ho.exclusion hfree hx
    simp only [hg]
    exact afterExclusion_granted _ r.access
  | entry =>
    have hx := (h.of_first_at_entry hc hr hs hl).1
    have hg := h.entry_poll_granted hc ho hr hs hl hwriters
    have hjoined := Semaphore.request_granted_of_line ho.exclusion hx (by omega) r.client
    simp only [hg, afterEntry, hreaders, Nat.lt_irrefl, and_false, if_false, hjoined]
    exact afterExclusion_granted _ r.access

end Guard

end EmbeddedSql.Lock
