import EmbeddedSql.Lock.Semaphore

/-!
# A semaphore with one permit

A semaphore with one permit keeps its holders apart: the permit is with one of
them, or assigned to one who waits, or free, and never in two places.
-/

namespace EmbeddedSql.Lock.Semaphore

variable {τ : Type} {s : Semaphore τ} {holds : τ → Prop}

/-- The one permit of an open semaphore is with those who hold it. -/
structure Excludes (s : Semaphore τ) (holds : τ → Prop) : Prop where
  /-- The semaphore is open. -/
  isOpen : s.closed = false
  /-- The permit is in one place if nobody holds it. -/
  single : s.permits + s.assigned.length ≤ 1
  /-- The permit is nowhere else if somebody holds it. -/
  taken : ∀ client, holds client → s.permits = 0 ∧ s.assigned = []
  /-- Nobody holds it together with somebody else. -/
  alone : ∀ client other, holds client → holds other → client = other

/-- Nobody holds the permit of a new semaphore. -/
theorem excludes_ofPermits : (ofPermits 1 : Semaphore τ).Excludes fun _ => False where
  isOpen := rfl
  single := Nat.le_refl 1
  taken _ h := h.elim
  alone _ _ h := h.elim

/-- Whoever holds the permit did so before, or there are fewer of them. -/
theorem Excludes.mono (h : s.Excludes holds) {fewer : τ → Prop}
    (hf : ∀ client, fewer client → holds client) : s.Excludes fewer where
  isOpen := h.isOpen
  single := h.single
  taken client hc := h.taken client (hf client hc)
  alone client other hc ho := h.alone client other (hf client hc) (hf other ho)

/-- Nobody holds the permit if it is free or assigned. -/
theorem Excludes.not_holds (h : s.Excludes holds) (hf : 0 < s.permits ∨ s.assigned ≠ [])
    (client : τ) : ¬ holds client := by
  intro hc
  have ht := h.taken client hc
  rcases hf with hp | ha
  · omega
  · exact ha ht.2

/-- If nobody holds the permit, one who comes may have it when it is nowhere
else. -/
theorem excludes_of_taken {client : τ} (ho : s.closed = false) (hp : s.permits = 0)
    (ha : s.assigned = []) : s.Excludes fun other => other = client where
  isOpen := ho
  single := by simp [hp, ha]
  taken _ _ := ⟨hp, ha⟩
  alone first second hf hs := hf.trans hs.symm

/-- Whoever holds the permit gives it back. -/
theorem Excludes.release (h : s.Excludes holds) {client : τ} (hc : holds client) :
    s.release.Excludes fun other => holds other ∧ other ≠ client := by
  have ht := h.taken client hc
  have hnobody : ∀ other, ¬ (holds other ∧ other ≠ client) := fun other ho =>
    ho.2 (h.alone other client ho.1 hc)
  constructor
  · unfold Semaphore.release
    split
    · exact h.isOpen
    · exact h.isOpen
  · unfold Semaphore.release
    split
    · simp [ht.1, ht.2]
    · simp [ht.1, ht.2]
  · exact fun other ho => absurd ho (hnobody other)
  · exact fun other _ ho => absurd ho (hnobody other)

/-- A request that is granted takes the permit, which nobody holds. -/
theorem Excludes.request_granted (h : s.Excludes holds) {client : τ}
    (hg : (s.request client).2 = .granted) :
    (s.request client).1.Excludes (fun other => other = client) ∧ ∀ other, ¬ holds other := by
  have ho := h.isOpen
  have hs := h.single
  simp only [request, ho, Bool.false_eq_true, if_false] at hg ⊢
  split at hg
  next n hp =>
    have hassigned : s.assigned = [] := List.length_eq_zero_iff.mp (by omega)
    refine ⟨?_, h.not_holds (.inl (by omega))⟩
    simp only
    exact excludes_of_taken rfl (by simp; omega) hassigned
  next => cases hg

/-- A request that is not granted joins the queue. -/
theorem Excludes.request_waiting (h : s.Excludes holds) {client : τ}
    (hg : (s.request client).2 ≠ .granted) : (s.request client).1.Excludes holds := by
  have ho := h.isOpen
  simp only [request, ho, Bool.false_eq_true, if_false] at hg ⊢
  split at hg
  next => exact absurd rfl hg
  next hp =>
    simp only
    exact ⟨rfl, hp ▸ h.single, fun other hother => ⟨rfl, (h.taken other hother).2⟩, h.alone⟩

variable [DecidableEq τ]

/-- Nothing is left when the permit that is assigned is picked up. -/
theorem Excludes.erase (h : s.Excludes holds) {client : τ} (hm : client ∈ s.assigned) :
    s.permits = 0 ∧ s.assigned.erase client = [] := by
  have hs := h.single
  have hpos := List.length_pos_of_mem hm
  have hlength := List.length_erase_of_mem hm
  exact ⟨by omega, List.length_eq_zero_iff.mp (by omega)⟩

/-- Whoever picks up the permit has it, and nobody else. -/
theorem Excludes.poll_granted (h : s.Excludes holds) {client : τ}
    (hg : (s.poll client).2 = .granted) :
    (s.poll client).1.Excludes (fun other => other = client) ∧ ∀ other, ¬ holds other := by
  have ho := h.isOpen
  simp only [poll, ho, Bool.false_eq_true, if_false] at hg ⊢
  split at hg
  next hm =>
    have herase := h.erase hm
    refine ⟨?_, h.not_holds (.inr (List.ne_nil_of_mem hm))⟩
    rw [if_pos hm]
    exact excludes_of_taken rfl herase.1 herase.2
  next => cases hg

/-- Looking without success changes nothing. -/
theorem Excludes.poll_waiting (h : s.Excludes holds) {client : τ}
    (hg : (s.poll client).2 ≠ .granted) : (s.poll client).1 = s := by
  have ho := h.isOpen
  simp only [poll, ho, Bool.false_eq_true, if_false] at hg ⊢
  split at hg
  next => exact absurd rfl hg
  next hm => rw [if_neg hm]

/-- A request that is withdrawn passes on the permit that was assigned to it. -/
theorem Excludes.cancel (h : s.Excludes holds) (client : τ) : (s.cancel client).Excludes holds := by
  unfold Semaphore.cancel
  split
  next hm =>
    have herase := h.erase hm
    have hnobody := h.not_holds (.inr (List.ne_nil_of_mem hm))
    have hfree : Excludes ⟨s.permits, s.queue, s.assigned.erase client, s.closed⟩
        (fun other => other = client) := excludes_of_taken h.isOpen herase.1 herase.2
    refine (hfree.release rfl).mono ?_
    exact fun other hother => absurd hother (hnobody other)
  next => exact ⟨h.isOpen, h.single, h.taken, h.alone⟩

end EmbeddedSql.Lock.Semaphore
