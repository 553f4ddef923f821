import EmbeddedSql.Proofs.Lock.Lines
import EmbeddedSql.Proofs.Lock.Reference

/-!
# Who is ahead of a request

A request at an open guard waits on for one of two reasons: its access does not go together
with that of somebody inside, or somebody who has asked before still waits. Nobody gets
ahead of a request that is there already. So if somebody is ahead of it now, somebody has
been ahead of it all the time since it was made.
-/

namespace EmbeddedSql.Lock

variable {τ : Type}

/-- Where everyone inside reads, no hold is for writing. -/
theorem writersIn_of_reads {holding : List (Hold τ)} (h : Reads holding) :
    writersIn holding = 0 := by
  refine List.countP_eq_zero.mpr fun hold hm => ?_
  simp [h hold hm]

/-- Fewer inside leave more room. -/
theorem Access.compatible_of_subset {access : Access} {holding more : List (Hold τ)}
    (hs : holding ⊆ more) (h : access.compatible more = true) :
    access.compatible holding = true := by
  cases access with
  | read => exact List.all_eq_true.mpr fun hold hm => List.all_eq_true.mp h hold (hs hm)
  | write =>
    rw [List.isEmpty_iff.mp h] at hs
    exact List.isEmpty_iff.mpr (List.subset_nil.mp hs)

namespace Guard

variable {g g' : Guard τ} {client : τ}

/-! ## Only writers wait at the exclusion -/

/-- Whoever waits at the exclusion is a writer. A reader who has passed the entry finds other
readers inside, whom it joins, or nobody. -/
def Fenced (g : Guard τ) : Prop :=
  ∀ r ∈ g.waiting, r.stage = .exclusion → r.access = .write

/-- Nobody waits at the exclusion of a new guard. -/
theorem fenced_new : (new : Guard τ).Fenced :=
  nofun

/-- A reader who gets past the entry of an open guard does not wait. -/
theorem Conserves.access_of_waits (hc : g.Conserves) (hs : g.entry.spare = 1)
    (hx : g.exclusion.closed = false) (entry : Semaphore τ) {access : Access} {stage : Stage}
    (hw : (afterEntry { g with entry } client access .granted).2 = .waiting stage) :
    access = .write := by
  cases access with
  | write => rfl
  | read =>
    exfalso
    obtain ⟨hwriters, hline⟩ := hc.of_spare_entry hs
    have hexclusion := hc.whole.exclusion
    simp only [afterEntry] at hw
    split at hw
    next => cases hw
    next hreaders =>
      have hnobody : g.readers = 0 := by simpa using hreaders
      rw [hwriters, hnobody] at hexclusion
      have hg := Semaphore.request_granted_of_line hx hline (by omega) client
      rw [hg] at hw
      cases hw

/-- Only who gets past the entry comes to wait at the exclusion. -/
theorem granted_of_afterEntry_exclusion {access : Access} {answer : Answer}
    (hw : (g.afterEntry client access answer).2 = .waiting .exclusion) : answer = .granted := by
  cases answer with
  | granted => rfl
  | failed => cases hw
  | waiting => cases hw

/-- A reader who asks does not come to wait at the exclusion: if it passes the entry, it joins
the readers or finds nobody inside. -/
theorem Fenced.request (h : g.Fenced) (hl : g.Lined) (hc : g.Conserves) (ho : g.Closes false)
    (client : τ) (access : Access) : (g.request client access).1.Fenced := by
  have hw := waiting_afterEntry { g with entry := (g.entry.request client).1 } client access
    (g.entry.request client).2
  unfold Guard.request
  simp only
  split
  next => exact fun r hr => h r (hw ▸ hr)
  next => exact fun r hr => h r (hw ▸ hr)
  next stage hp =>
    intro r hr hs
    simp only [hw] at hr
    rcases List.mem_append.mp hr with hr | hr
    · exact h r hr hs
    · obtain rfl := List.mem_singleton.mp hr
      obtain rfl : stage = .exclusion := hs
      have hg := granted_of_afterEntry_exclusion hp
      have hspare := (hl.entry.line_of_request_granted hc.spare_entry hg).2
      rw [hg] at hp
      exact hc.access_of_waits hspare ho.exclusion _ hp

variable [DecidableEq τ]

/-- Whoever comes to wait at the exclusion or waits on there is a writer. -/
theorem Fenced.advance (h : g.Fenced) (hc : g.Conserves) (ho : g.Closes false)
    {r : Request τ} (hr : r ∈ g.waiting) (hw : (g.advance r).2 = .waiting .exclusion) :
    r.access = .write := by
  unfold Guard.advance at hw
  cases hs : r.stage with
  | exclusion => exact h r hr hs
  | entry =>
    simp only [hs] at hw
    have hg := granted_of_afterEntry_exclusion hw
    obtain ⟨_, _, hspare⟩ := Semaphore.line_of_poll_granted hc.spare_entry hg
    rw [hg] at hw
    exact hc.access_of_waits hspare ho.exclusion _ hw

/-- A reader who is looked at does not come to wait at the exclusion. -/
theorem Fenced.poll (h : g.Fenced) (hc : g.Conserves) (ho : g.Closes false) (client : τ) :
    (g.poll client).1.Fenced := by
  cases hf : g.find? client with
  | none =>
    simp only [Guard.poll, hf]
    exact h
  | some r =>
    obtain ⟨hr, rfl⟩ := mem_of_find? hf
    have hw := waiting_advance g r
    have hadvance := h.advance hc ho hr
    simp only [Guard.poll, hf]
    split
    next => exact fun other ho => h other (hw ▸ List.mem_of_mem_filter ho)
    next => exact fun other ho => h other (hw ▸ List.mem_of_mem_filter ho)
    next stage hp =>
      intro other hm hs
      obtain ⟨before, hb, rfl⟩ := List.mem_map.mp hm
      rw [hw] at hb
      by_cases he : before.client = r.client
      · rw [if_pos he] at hs ⊢
        obtain rfl : stage = .exclusion := hs
        obtain rfl : before = r := List.inj_on_of_nodup_map hc.distinct hb hr he
        exact hadvance hp
      · rw [if_neg he] at hs ⊢
        exact h before hb hs

/-- A withdrawal brings nobody to the exclusion. -/
theorem Fenced.cancel (h : g.Fenced) (client : τ) : (g.cancel client).Fenced := by
  intro r hr
  unfold Guard.cancel at hr
  split at hr
  next => exact h r hr
  next =>
    simp only at hr
    split at hr
    next => exact h r (List.mem_of_mem_filter hr)
    next => exact h r (List.mem_of_mem_filter hr)

/-- Whatever is done at an open guard for one client, only writers wait at the exclusion. -/
theorem Acts.fenced (h : g.Acts client g') (hf : g.Fenced) (hl : g.Lined) (hc : g.Conserves)
    (ho : g.Closes false) : g'.Fenced := by
  cases h with
  | rests => exact hf
  | asks access => exact hf.request hl hc ho client access
  | looks => exact hf.poll hc ho client
  | withdraws => exact hf.cancel client
  | leaves => exact fun r hr => hf r (waiting_release g client ▸ hr)
  | shuts => exact fun r hr => hf r (waiting_release g.close client ▸ hr)

/-! ## Whoever has nobody ahead is let in -/

/-- Somebody is ahead of a request. -/
inductive Ahead (g : Guard τ) (client : τ) (access : Access) : Prop where
  /-- The access does not go together with that of somebody inside. -/
  | inside (h : access.compatible g.holding = false)
  /-- Somebody who has asked before still waits. -/
  | waits {other : τ} (h : [other, client].Sublist g.line)

/-- The first of the line is let in if its access goes together with that of those inside. -/
theorem Lined.poll_granted_of_compatible (h : g.Lined) (hc : g.Conserves) (ho : g.Closes false)
    (hfenced : g.Fenced) {r : Request τ} (hf : g.find? client = some r)
    (ha : r.access.compatible g.holding = true) {rest : List τ} (hl : g.line = client :: rest) :
    (g.poll client).2 = some .granted := by
  by_cases hempty : g.holding = []
  · exact h.poll_granted hc ho hempty hl
  obtain ⟨hr, rfl⟩ := mem_of_find? hf
  have hread : r.access = .read := by
    cases haccess : r.access with
    | read => rfl
    | write =>
      rw [haccess] at ha
      exact absurd (List.isEmpty_iff.mp ha) hempty
  have hs : r.stage = .entry := by
    cases hs : r.stage with
    | entry => rfl
    | exclusion =>
      have hwrite := hfenced r hr hs
      rw [hread] at hwrite
      cases hwrite
  have hreads : Reads g.holding := by
    rw [hread] at ha
    exact fun hold hm => of_decide_eq_true (List.all_eq_true.mp ha hold hm)
  have hreaders : 0 < g.readers := by
    obtain ⟨first, others, hfirst⟩ := List.exists_cons_of_ne_nil hempty
    have hm : first ∈ g.holding := hfirst ▸ List.mem_cons_self
    rw [hc.whole.counted]
    exact List.countP_pos_iff.mpr ⟨first, hm, decide_eq_true (hreads first hm)⟩
  have hg := h.entry_poll_granted hc ho hr hs hl (writersIn_of_reads hreads)
  rw [poll_snd hf, Option.some.injEq]
  simp only [Guard.advance, hs, hg, afterEntry, hread, hreaders, and_self, if_true]

/-- Somebody is ahead of a request that has looked and has to wait on. -/
theorem Lined.ahead_of_poll (h : g.Lined) (hc : g.Conserves) (ho : g.Closes false)
    (hfenced : g.Fenced) {r : Request τ} (hf : g.find? client = some r) {stage : Stage}
    (hp : (g.poll client).2 = some (.waiting stage)) : g.Ahead client r.access := by
  have hm := mem_line_of_poll hp
  obtain ⟨first, rest, hl⟩ := List.exists_cons_of_ne_nil (List.ne_nil_of_mem hm)
  rw [hl] at hm
  rcases List.mem_cons.mp hm with rfl | hbehind
  · refine .inside ?_
    rw [Bool.eq_false_iff]
    intro ha
    rw [h.poll_granted_of_compatible hc ho hfenced hf ha hl] at hp
    cases hp
  · have hahead : [first, client].Sublist g.line := by
      rw [hl]
      exact (List.singleton_sublist.mpr hbehind).cons_cons first
    exact .waits hahead

/-! ## Nobody gets ahead of a request -/

omit [DecidableEq τ] in
/-- Who is not let in at once does not come inside. -/
theorem holding_request {access : Access} (hp : (g.request client access).2 ≠ .granted) :
    (g.request client access).1.holding = g.holding := by
  have hh := holding_afterEntry { g with entry := (g.entry.request client).1 } client access
    (g.entry.request client).2
  rw [request_snd] at hp
  unfold Guard.request
  simp only
  split
  next hgranted => exact absurd hgranted hp
  next => exact hh
  next => exact hh

/-- Who is not let in when it looks does not come inside. -/
theorem holding_poll (hp : (g.poll client).2 ≠ some .granted) :
    (g.poll client).1.holding = g.holding := by
  cases hf : g.find? client with
  | none => simp only [Guard.poll, hf]
  | some r =>
    have hh := holding_advance g r
    rw [poll_snd hf] at hp
    simp only [Guard.poll, hf]
    split
    next hgranted => exact absurd (congrArg some hgranted) hp
    next => exact hh
    next => exact hh

/-- Withdrawing a request changes nothing about who is inside. -/
theorem holding_cancel (g : Guard τ) (client : τ) : (g.cancel client).holding = g.holding := by
  unfold cancel
  split
  · rfl
  · simp only
    split
    · rfl
    · rfl

/-- Whoever is inside when access has been given back was inside before. -/
theorem holding_release_subset (g : Guard τ) (client : τ) :
    (g.release client).holding ⊆ g.holding := by
  cases hh : g.held? client with
  | none =>
    simp only [release, hh]
    exact List.Subset.refl _
  | some access =>
    rw [holding_release hh]
    exact List.filter_subset_self _

/-- Nobody comes inside an open guard, unless nobody waits there or it is the first of the
line. -/
theorem Acts.holding (h : g.Acts client g') (hl : g.Lined) (hc : g.Conserves) :
    g'.holding ⊆ g.holding ∨ g.line = [] ∨ ∃ rest, g.line = client :: rest := by
  cases h with
  | rests => exact .inl (List.Subset.refl _)
  | asks access =>
    by_cases hp : (g.request client access).2 = .granted
    · exact .inr (.inl (hl.line_of_request_granted hc hp))
    · exact .inl (holding_request hp ▸ List.Subset.refl _)
  | looks =>
    by_cases hp : (g.poll client).2 = some .granted
    · exact .inr (.inr (hl.line_of_poll_granted hc hp))
    · exact .inl (holding_poll hp ▸ List.Subset.refl _)
  | withdraws => exact .inl (holding_cancel g client ▸ List.Subset.refl _)
  | leaves => exact .inl (holding_release_subset g client)
  | shuts => exact .inl (holding_release_subset g.close client)

/-- Of two others who stand in line the first has stood there before the second. -/
theorem Acts.sublist_line_of (h : g.Acts client g') {first second : τ} (hne : second ≠ client)
    (hl : [first, second].Sublist g'.line) : [first, second].Sublist g.line := by
  rcases h.line with he | he | he
  · rwa [he] at hl
  · rw [he, ← List.reverse_sublist, List.reverse_append] at hl
    exact List.reverse_sublist.mp (hl.of_cons_of_ne hne)
  · rw [he] at hl
    exact hl.trans List.filter_sublist

/-- Nobody gets ahead of a request by what is done for somebody else. -/
theorem Acts.ahead (h : g.Acts client g') (hl : g.Lined) (hc : g.Conserves) {other : τ}
    (hne : other ≠ client) (hm : other ∈ g.line) {access : Access}
    (ha : g'.Ahead other access) : g.Ahead other access := by
  cases ha with
  | waits hs => exact .waits (h.sublist_line_of hne hs)
  | inside hi =>
    rcases h.holding hl hc with hsubset | hempty | ⟨rest, hfirst⟩
    · refine .inside ?_
      rw [Bool.eq_false_iff] at hi ⊢
      exact fun hall => hi (Access.compatible_of_subset hsubset hall)
    · rw [hempty] at hm
      cases hm
    · -- Who is let in now has stood in front of the request.
      rw [hfirst] at hm
      have hbehind := (List.mem_cons.mp hm).resolve_left hne
      have hahead : [client, other].Sublist g.line := by
        rw [hfirst]
        exact (List.singleton_sublist.mpr hbehind).cons_cons client
      exact .waits hahead

end Guard

end EmbeddedSql.Lock
