import EmbeddedSql.Lock.Guard

/-!
# Open and closed guards

The two semaphores of a guard are closed together or not at all, and only
closing the guard closes them. An open guard fails nobody, and a closed one
admits nobody.
-/

namespace EmbeddedSql.Lock

variable {τ : Type}

namespace Semaphore

/-- Asking for a permit does not close a semaphore. -/
theorem closed_request (s : Semaphore τ) (client : τ) :
    (s.request client).1.closed = s.closed := by
  unfold request
  split
  · rfl
  · split
    · rfl
    · rfl

/-- Giving a permit back does not close a semaphore. -/
theorem closed_release (s : Semaphore τ) : s.release.closed = s.closed := by
  unfold release
  split
  · rfl
  · rfl

/-- An open semaphore does not fail a request. -/
theorem request_ne_failed {s : Semaphore τ} (h : s.closed = false) (client : τ) :
    (s.request client).2 ≠ .failed := by
  simp only [request, h, Bool.false_eq_true, if_false]
  split
  · exact fun he => nomatch he
  · exact fun he => nomatch he

variable [DecidableEq τ]

/-- Withdrawing a request does not close a semaphore. -/
theorem closed_cancel (s : Semaphore τ) (client : τ) : (s.cancel client).closed = s.closed := by
  unfold cancel
  split
  · rw [closed_release]
  · rfl

/-- Looking at a request does not close a semaphore. -/
theorem closed_poll (s : Semaphore τ) (client : τ) : (s.poll client).1.closed = s.closed := by
  unfold poll
  split
  · exact closed_cancel s client
  · split
    · rfl
    · rfl

/-- An open semaphore does not fail a request that waits. -/
theorem poll_ne_failed {s : Semaphore τ} (h : s.closed = false) (client : τ) :
    (s.poll client).2 ≠ .failed := by
  simp only [poll, h, Bool.false_eq_true, if_false]
  split
  · exact fun he => nomatch he
  · exact fun he => nomatch he

/-- A closed semaphore fails a request that waits. -/
theorem poll_of_closed {s : Semaphore τ} (h : s.closed = true) (client : τ) :
    (s.poll client).2 = .failed := by
  simp [poll, h]

end Semaphore

namespace Guard

/-- The semaphores of a guard are closed or open, both of them. -/
structure Closes (g : Guard τ) (closed : Bool) : Prop where
  /-- The semaphore that everyone passes first. -/
  entry : g.entry.closed = closed
  /-- The semaphore that keeps writers alone. -/
  exclusion : g.exclusion.closed = closed

/-- A new guard is open. -/
theorem closes_new : (new : Guard τ).Closes false :=
  ⟨rfl, rfl⟩

/-- Closing a guard closes both of its semaphores. -/
theorem closes_close (g : Guard τ) : g.close.Closes true :=
  ⟨rfl, rfl⟩

/-- Counting a reader leaves both semaphores as open or closed as they were. -/
theorem closes_countReader {g : Guard τ} {closed : Bool} (h : g.Closes closed) :
    g.countReader.Closes closed :=
  ⟨(Semaphore.closed_release g.entry).trans h.entry, h.exclusion⟩

/-- Whatever the exclusion answers, both semaphores stay as open or closed as they were. -/
theorem closes_afterExclusion (g : Guard τ) {closed : Bool} (h : g.Closes closed)
    (access : Access) (answer : Answer) : (g.afterExclusion access answer).1.Closes closed := by
  cases answer with
  | granted =>
    cases access with
    | read => exact closes_countReader h
    | write => exact h
  | failed => exact ⟨(Semaphore.closed_release g.entry).trans h.entry, h.exclusion⟩
  | waiting => exact h

/-- Whatever the entry answers, both semaphores stay as open or closed as they were. -/
theorem closes_afterEntry (g : Guard τ) {closed : Bool} (h : g.Closes closed) (client : τ)
    (access : Access) (answer : Answer) :
    (g.afterEntry client access answer).1.Closes closed := by
  cases answer with
  | failed => exact h
  | waiting => exact h
  | granted =>
    simp only [afterEntry]
    split
    · exact closes_countReader h
    · have hasked : Closes { g with exclusion := (g.exclusion.request client).1 } closed :=
        ⟨h.entry, (Semaphore.closed_request g.exclusion client).trans h.exclusion⟩
      exact closes_afterExclusion _ hasked access _

/-- The exclusion fails only whom it answers so. -/
theorem afterExclusion_ne_failed (g : Guard τ) {access : Access} {answer : Answer}
    (h : answer ≠ .failed) : (g.afterExclusion access answer).2 ≠ .failed := by
  cases answer with
  | failed => exact absurd rfl h
  | waiting => exact fun he => nomatch he
  | granted =>
    cases access with
    | read => exact fun he => nomatch he
    | write => exact fun he => nomatch he

/-- An open guard fails nobody who has passed the entry or waits there. -/
theorem afterEntry_ne_failed (g : Guard τ) (hg : g.exclusion.closed = false) {client : τ}
    {access : Access} {answer : Answer} (h : answer ≠ .failed) :
    (g.afterEntry client access answer).2 ≠ .failed := by
  cases answer with
  | failed => exact absurd rfl h
  | waiting => exact fun he => nomatch he
  | granted =>
    simp only [afterEntry]
    split
    · exact fun he => nomatch he
    · exact afterExclusion_ne_failed _ (Semaphore.request_ne_failed hg client)

/-- A request leaves both semaphores as open or closed as they were. -/
theorem closes_request {g : Guard τ} {closed : Bool} (h : g.Closes closed) (client : τ)
    (access : Access) : (g.request client access).1.Closes closed := by
  have hasked : Closes { g with entry := (g.entry.request client).1 } closed :=
    ⟨(Semaphore.closed_request g.entry client).trans h.entry, h.exclusion⟩
  have hafter := closes_afterEntry _ hasked client access (g.entry.request client).2
  simp only [request]
  split
  · exact ⟨hafter.entry, hafter.exclusion⟩
  · exact hafter
  · exact ⟨hafter.entry, hafter.exclusion⟩

/-- A closed guard fails every request. -/
theorem request_of_closed {g : Guard τ} (h : g.Closes true) (client : τ) (access : Access) :
    (g.request client access).2 = .failed := by
  simp [request, Semaphore.request, h.entry, afterEntry]

/-- An open guard fails no request. -/
theorem request_ne_failed {g : Guard τ} (h : g.Closes false) (client : τ) (access : Access) :
    (g.request client access).2 ≠ .failed := by
  have hentry := Semaphore.request_ne_failed h.entry client
  have hafter : (afterEntry { g with entry := (g.entry.request client).1 } client access
      (g.entry.request client).2).2 ≠ .failed :=
    afterEntry_ne_failed { g with entry := (g.entry.request client).1 } h.exclusion hentry
  simp only [request]
  split
  · exact fun he => nomatch he
  next hp => exact absurd hp hafter
  · exact fun he => nomatch he

variable [DecidableEq τ]

/-- A look at a waiting request leaves both semaphores as open or closed as they were. -/
theorem closes_advance {g : Guard τ} {closed : Bool} (h : g.Closes closed) (r : Request τ) :
    (g.advance r).1.Closes closed := by
  unfold advance
  split
  · have hasked : Closes { g with entry := (g.entry.poll r.client).1 } closed :=
      ⟨(Semaphore.closed_poll g.entry r.client).trans h.entry, h.exclusion⟩
    exact closes_afterEntry _ hasked r.client r.access _
  · have hasked : Closes { g with exclusion := (g.exclusion.poll r.client).1 } closed :=
      ⟨h.entry, (Semaphore.closed_poll g.exclusion r.client).trans h.exclusion⟩
    exact closes_afterExclusion _ hasked r.access _

/-- An open guard fails no request that waits. -/
theorem advance_ne_failed {g : Guard τ} (h : g.Closes false) (r : Request τ) :
    (g.advance r).2 ≠ .failed := by
  unfold advance
  split
  · have hentry := Semaphore.poll_ne_failed h.entry r.client
    exact afterEntry_ne_failed { g with entry := (g.entry.poll r.client).1 } h.exclusion hentry
  · have hexclusion := Semaphore.poll_ne_failed h.exclusion r.client
    exact afterExclusion_ne_failed { g with exclusion := (g.exclusion.poll r.client).1 } hexclusion

/-- A closed guard fails every request that waits. -/
theorem advance_of_closed {g : Guard τ} (h : g.Closes true) (r : Request τ) :
    (g.advance r).2 = .failed := by
  unfold advance
  split
  · simp only [Semaphore.poll_of_closed h.entry, afterEntry]
  · simp only [Semaphore.poll_of_closed h.exclusion, afterExclusion]

/-- A look at the request of a client leaves both semaphores as open or closed as they were. -/
theorem closes_poll {g : Guard τ} {closed : Bool} (h : g.Closes closed) (client : τ) :
    (g.poll client).1.Closes closed := by
  unfold poll
  split
  · exact h
  next r _ =>
    have ha := closes_advance h r
    simp only
    split
    · exact ⟨ha.entry, ha.exclusion⟩
    · exact ⟨ha.entry, ha.exclusion⟩
    · exact ⟨ha.entry, ha.exclusion⟩

/-- An open guard fails nobody who looks at their request. -/
theorem poll_ne_failed_of_open {g : Guard τ} (h : g.Closes false) (client : τ) :
    (g.poll client).2 ≠ some .failed := by
  unfold poll
  split
  · exact fun he => nomatch he
  next r _ =>
    have ha := advance_ne_failed h r
    simp only
    split
    · exact fun he => nomatch he
    next hp => exact absurd hp ha
    · exact fun he => nomatch he

/-- A closed guard fails everybody who looks at their request. -/
theorem poll_of_closed {g : Guard τ} (h : g.Closes true) {client : τ} {progress : Progress}
    (hp : (g.poll client).2 = some progress) : progress = .failed := by
  unfold poll at hp
  split at hp
  · cases hp
  next r _ =>
    have ha := advance_of_closed h r
    simp only [ha] at hp
    exact (Option.some.inj hp).symm

/-- Giving access back leaves both semaphores as open or closed as they were. -/
theorem closes_release {g : Guard τ} {closed : Bool} (h : g.Closes closed) (client : τ) :
    (g.release client).Closes closed := by
  unfold release
  split
  · exact h
  next access _ =>
    cases access with
    | read =>
      refine ⟨h.entry, ?_⟩
      simp only [uncountReader]
      split
      · exact (Semaphore.closed_release g.exclusion).trans h.exclusion
      · exact h.exclusion
    | write =>
      exact ⟨(Semaphore.closed_release g.entry).trans h.entry,
        (Semaphore.closed_release g.exclusion).trans h.exclusion⟩

/-- A withdrawal leaves both semaphores as open or closed as they were. -/
theorem closes_cancel {g : Guard τ} {closed : Bool} (h : g.Closes closed) (client : τ) :
    (g.cancel client).Closes closed := by
  unfold cancel
  split
  · exact h
  next r _ =>
    simp only
    split
    · exact ⟨(Semaphore.closed_cancel g.entry client).trans h.entry, h.exclusion⟩
    · exact ⟨(Semaphore.closed_release g.entry).trans h.entry,
        (Semaphore.closed_cancel g.exclusion client).trans h.exclusion⟩

end Guard

end EmbeddedSql.Lock
