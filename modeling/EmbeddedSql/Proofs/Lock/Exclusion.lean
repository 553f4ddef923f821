import EmbeddedSql.Lock.Guard
import Mathlib.Data.List.Nodup

/-!
# Who is inside a guard together

The permit of the exclusion is in one place: free or assigned, with the writer
inside, or with the readers inside together. This holds between any two
operations of a guard, whether or not the requests that wait have been looked at
in the meantime, and it keeps everybody away from a writer.
-/

namespace EmbeddedSql.Lock

variable {τ : Type}

namespace Semaphore

/-- The permits that nobody has picked up. -/
def spare (s : Semaphore τ) : Nat :=
  s.permits + s.assigned.length

/-- A permit that is given back is spare, whether it goes to somebody in the queue or to
nobody. -/
theorem spare_release (s : Semaphore τ) : s.release.spare = s.spare + 1 := by
  unfold release spare
  split
  · simp only [List.length_append, List.length_singleton]
    omega
  · simp only
    omega

/-- A request takes a spare permit or leaves them all. -/
theorem spare_request (s : Semaphore τ) (client : τ) :
    (s.request client).1.spare + (if (s.request client).2 = .granted then 1 else 0) = s.spare := by
  unfold request
  by_cases hclosed : s.closed = true
  · simp [hclosed]
  · rw [if_neg hclosed]
    split
    next n hp =>
      simp only [spare, hp, if_true]
      omega
    next hp => simp [spare, hp]

variable [DecidableEq τ]

/-- Erasing a client that is in a list makes the list shorter by one. -/
theorem length_erase_of_mem {list : List τ} {client : τ} (h : client ∈ list) :
    (list.erase client).length + 1 = list.length := by
  have hlength := List.length_erase_of_mem h
  have hpos := List.length_pos_of_mem h
  omega

/-- A withdrawn request leaves as many permits spare as before. -/
theorem spare_cancel (s : Semaphore τ) (client : τ) : (s.cancel client).spare = s.spare := by
  unfold cancel
  split
  next hm =>
    have hlength := length_erase_of_mem hm
    rw [spare_release, spare, spare]
    simp only
    omega
  next => rfl

/-- Looking at a request takes a spare permit or leaves them all. -/
theorem spare_poll (s : Semaphore τ) (client : τ) :
    (s.poll client).1.spare + (if (s.poll client).2 = .granted then 1 else 0) = s.spare := by
  unfold poll
  split
  · simp [spare_cancel]
  · split
    next hm =>
      have hlength := length_erase_of_mem hm
      simp only [spare, if_true]
      omega
    next => simp

end Semaphore

/-! ## Inside a guard -/

/-- How many holds are for reading. -/
def readersIn (holding : List (Hold τ)) : Nat :=
  holding.countP fun hold => hold.access = .read

/-- How many holds are for writing. -/
def writersIn (holding : List (Hold τ)) : Nat :=
  holding.countP fun hold => hold.access = .write

/-- One more hold adds to the readers inside if it is for reading. -/
theorem readersIn_insert (front back : List (Hold τ)) (hold : Hold τ) :
    readersIn (front ++ hold :: back) =
      readersIn (front ++ back) + if hold.access = .read then 1 else 0 := by
  simp only [readersIn, List.countP_append, List.countP_cons, decide_eq_true_eq]
  omega

/-- One more hold adds to the writers inside if it is for writing. -/
theorem writersIn_insert (front back : List (Hold τ)) (hold : Hold τ) :
    writersIn (front ++ hold :: back) =
      writersIn (front ++ back) + if hold.access = .write then 1 else 0 := by
  simp only [writersIn, List.countP_append, List.countP_cons, decide_eq_true_eq]
  omega

/-- A hold at the end adds to the readers inside if it is for reading. -/
theorem readersIn_append (holding : List (Hold τ)) (hold : Hold τ) :
    readersIn (holding ++ [hold]) =
      readersIn holding + if hold.access = .read then 1 else 0 := by
  rw [readersIn_insert, List.append_nil]

/-- A hold at the end adds to the writers inside if it is for writing. -/
theorem writersIn_append (holding : List (Hold τ)) (hold : Hold τ) :
    writersIn (holding ++ [hold]) =
      writersIn holding + if hold.access = .write then 1 else 0 := by
  rw [writersIn_insert, List.append_nil]

/-- Those who are inside once a request has come to something. -/
def letIn (holding : List (Hold τ)) (client : τ) (access : Access) : Progress → List (Hold τ)
  | .granted => holding ++ [⟨client, access⟩]
  | _ => holding

/-- The access for which a request waits on. -/
def Progress.awaits (access : Access) : Progress → Option Access
  | .waiting _ => some access
  | _ => none

/-- The access that a request has brought. -/
def Progress.brings (access : Access) : Progress → Option Access
  | .granted => some access
  | _ => none

namespace Guard

/-- The exclusion's permit is in one place, given those who are inside and the
permits that an operation has picked up for somebody who is not inside yet. -/
structure Balanced (g : Guard τ) (holding : List (Hold τ)) (picked : Nat) : Prop where
  /-- The readers are counted. -/
  counted : g.readers = readersIn holding
  /-- The permit is spare, picked up, with a writer, or with the readers. -/
  single : g.exclusion.spare + picked + writersIn holding + min g.readers 1 ≤ 1

/-- Nobody is inside twice, and the exclusion's permit is in one place. -/
structure Exclusive (g : Guard τ) : Prop where
  /-- The permit is in one place. -/
  balanced : g.Balanced g.holding 0
  /-- Everybody is inside once. -/
  distinct : (g.holding.map (·.client)).Nodup

/-- A new guard has nobody inside and the exclusion's permit free. -/
theorem exclusive_new : (new : Guard τ).Exclusive where
  balanced := ⟨rfl, Nat.le_refl 1⟩
  distinct := List.nodup_nil

/-- Closing a guard leaves the exclusion's permit where it is. -/
theorem Exclusive.close {g : Guard τ} (h : g.Exclusive) : g.close.Exclusive where
  balanced := ⟨h.balanced.counted, h.balanced.single⟩
  distinct := h.distinct

/-- Two who are inside together are both there to read. -/
theorem Exclusive.read_of_ne {g : Guard τ} (h : g.Exclusive) {first second : Hold τ}
    (hf : first ∈ g.holding) (hs : second ∈ g.holding) (hne : first.client ≠ second.client) :
    first.access = .read ∧ second.access = .read := by
  have hsingle := h.balanced.single
  rw [h.balanced.counted] at hsingle
  -- A writer and somebody else would have the permit twice.
  have hwriter {writer other : Hold τ} (hw : writer ∈ g.holding) (ho : other ∈ g.holding)
      (hno : writer.client ≠ other.client) : writer.access = .read := by
    cases ha : writer.access with
    | read => rfl
    | write =>
      obtain ⟨front, back, hsplit⟩ := List.append_of_mem hw
      have hrest : other ∈ front ++ back := by
        rw [hsplit] at ho
        rcases List.mem_append.mp ho with ho | ho
        · exact List.mem_append_left _ ho
        · rcases List.mem_cons.mp ho with rfl | ho
          · exact absurd rfl hno
          · exact List.mem_append_right _ ho
      have hothers : 0 < readersIn (front ++ back) + writersIn (front ++ back) := by
        cases hother : other.access with
        | read =>
          have hpos : 0 < readersIn (front ++ back) :=
            List.countP_pos_iff.mpr ⟨other, hrest, by simp [hother]⟩
          omega
        | write =>
          have hpos : 0 < writersIn (front ++ back) :=
            List.countP_pos_iff.mpr ⟨other, hrest, by simp [hother]⟩
          omega
      rw [hsplit, readersIn_insert, writersIn_insert, ha] at hsingle
      simp only [reduceCtorEq, if_true, if_false] at hsingle
      omega
  exact ⟨hwriter hf hs hne, hwriter hs hf (Ne.symm hne)⟩

/-! ## Answers -/

/-- Whoever gets the exclusion's permit takes it inside. -/
theorem Balanced.afterExclusion {g : Guard τ} {holding : List (Hold τ)} {answer : Answer}
    (h : g.Balanced holding (if answer = .granted then 1 else 0)) (client : τ)
    (access : Access) :
    (g.afterExclusion access answer).1.Balanced
      (letIn holding client access (g.afterExclusion access answer).2) 0 := by
  have hcounted := h.counted
  have hsingle := h.single
  cases answer with
  | failed => exact ⟨hcounted, hsingle⟩
  | waiting => exact ⟨hcounted, hsingle⟩
  | granted =>
    rw [if_pos rfl] at hsingle
    cases access with
    | read =>
      constructor
      · simp only [Guard.afterExclusion, letIn, readersIn_append, countReader, hcounted, if_true]
      · simp only [Guard.afterExclusion, letIn, writersIn_append, countReader, reduceCtorEq,
          if_false]
        omega
    | write =>
      constructor
      · simp only [Guard.afterExclusion, letIn, readersIn_append]
        simpa using hcounted
      · simp only [Guard.afterExclusion, letIn, writersIn_append, if_true]
        omega

/-- Whoever has passed the entry joins the readers or needs the permit. -/
theorem Balanced.afterEntry {g : Guard τ} {holding : List (Hold τ)} (h : g.Balanced holding 0)
    (client : τ) (access : Access) (answer : Answer) :
    (g.afterEntry client access answer).1.Balanced
      (letIn holding client access (g.afterEntry client access answer).2) 0 := by
  cases answer with
  | failed => exact h
  | waiting => exact h
  | granted =>
    simp only [Guard.afterEntry]
    split
    next hjoins =>
      obtain ⟨rfl, hreaders⟩ := hjoins
      have hsingle := h.single
      constructor
      · simp only [letIn, readersIn_append, countReader, h.counted, if_true]
      · simp only [letIn, writersIn_append, countReader, reduceCtorEq, if_false]
        omega
    next =>
      have hspare := Semaphore.spare_request g.exclusion client
      have hsingle := h.single
      have hasked : Balanced { g with exclusion := (g.exclusion.request client).1 } holding
          (if (g.exclusion.request client).2 = .granted then 1 else 0) :=
        ⟨h.counted, by simp only; omega⟩
      exact hasked.afterExclusion client access

/-- What the exclusion answers changes nothing about who is inside. -/
theorem holding_afterExclusion (g : Guard τ) (access : Access) (answer : Answer) :
    (g.afterExclusion access answer).1.holding = g.holding := by
  cases answer with
  | failed => rfl
  | waiting => rfl
  | granted =>
    cases access with
    | read => rfl
    | write => rfl

/-- What the exclusion answers changes nothing about who waits. -/
theorem waiting_afterExclusion (g : Guard τ) (access : Access) (answer : Answer) :
    (g.afterExclusion access answer).1.waiting = g.waiting := by
  cases answer with
  | failed => rfl
  | waiting => rfl
  | granted =>
    cases access with
    | read => rfl
    | write => rfl

/-- What the entry answers changes nothing about who is inside. -/
theorem holding_afterEntry (g : Guard τ) (client : τ) (access : Access) (answer : Answer) :
    (g.afterEntry client access answer).1.holding = g.holding := by
  cases answer with
  | failed => rfl
  | waiting => rfl
  | granted =>
    simp only [afterEntry]
    split
    · rfl
    · exact holding_afterExclusion _ access _

/-- What the entry answers changes nothing about who waits. -/
theorem waiting_afterEntry (g : Guard τ) (client : τ) (access : Access) (answer : Answer) :
    (g.afterEntry client access answer).1.waiting = g.waiting := by
  cases answer with
  | failed => rfl
  | waiting => rfl
  | granted =>
    simp only [afterEntry]
    split
    · rfl
    · exact waiting_afterExclusion _ access _

/-! ## What an operation changes -/

/-- A guard has done something for a client, who waits and is inside for the given
kinds of access after that; the others wait and are inside as before. -/
structure Serves (g g' : Guard τ) (client : τ) (waits holds : Option Access) : Prop where
  /-- Exclusion goes on. -/
  exclusive : g'.Exclusive
  /-- The others wait as before. -/
  others_waiting : ∀ r ∈ g'.waiting, r.client ≠ client → r ∈ g.waiting
  /-- The others are inside as before. -/
  others_holding : ∀ hold : Hold τ, hold.client ≠ client → (hold ∈ g'.holding ↔ hold ∈ g.holding)
  /-- For what the client waits. -/
  waits : ∀ r ∈ g'.waiting, r.client = client → waits = some r.access
  /-- For what the client is inside. -/
  holds : ∀ access, ⟨client, access⟩ ∈ g'.holding ↔ holds = some access

/-- A client who is not inside comes in, or does not. -/
theorem mem_letIn {holding : List (Hold τ)} {client : τ}
    (hout : ∀ hold ∈ holding, hold.client ≠ client) (access : Access) (progress : Progress)
    (other : Access) :
    ⟨client, other⟩ ∈ letIn holding client access progress ↔
      progress.brings access = some other := by
  have hnot : (⟨client, other⟩ : Hold τ) ∉ holding := fun hm => hout _ hm rfl
  cases progress with
  | granted =>
    simp only [letIn, Progress.brings, List.mem_append, List.mem_singleton, hnot, false_or,
      Hold.mk.injEq, true_and, Option.some.injEq]
    exact eq_comm
  | failed => simp [letIn, Progress.brings, hnot]
  | waiting stage => simp [letIn, Progress.brings, hnot]

/-- What a request comes to changes nothing about whether somebody else is inside. -/
theorem mem_letIn_of_ne {holding : List (Hold τ)} {client : τ} {hold : Hold τ}
    (hne : hold.client ≠ client) (access : Access) (progress : Progress) :
    hold ∈ letIn holding client access progress ↔ hold ∈ holding := by
  cases progress with
  | granted =>
    have hother : hold ≠ ⟨client, access⟩ := fun he => hne (congrArg Hold.client he)
    simp [letIn, hother]
  | failed => rfl
  | waiting stage => rfl

/-- Nobody comes in twice. -/
theorem nodup_letIn {holding : List (Hold τ)} (hn : (holding.map (·.client)).Nodup) {client : τ}
    (hout : ∀ hold ∈ holding, hold.client ≠ client) (access : Access) (progress : Progress) :
    ((letIn holding client access progress).map (·.client)).Nodup := by
  cases progress with
  | failed => exact hn
  | waiting stage => exact hn
  | granted =>
    simp only [letIn, List.map_append, List.map_cons, List.map_nil]
    rw [List.nodup_append]
    refine ⟨hn, List.pairwise_singleton _ client, ?_⟩
    intro first hf second hs
    obtain ⟨hold, hm, rfl⟩ := List.mem_map.mp hf
    rw [List.mem_singleton.mp hs]
    exact hout hold hm

/-- A guard serves a client who was not inside with what the request has come to. -/
theorem serves_of_letIn {g g' : Guard τ} (h : g.Exclusive) {client : τ} {access : Access}
    {progress : Progress} (hout : ∀ hold ∈ g.holding, hold.client ≠ client)
    (hb : g'.Balanced (letIn g.holding client access progress) 0)
    (hh : g'.holding = letIn g.holding client access progress)
    (ho : ∀ r ∈ g'.waiting, r.client ≠ client → r ∈ g.waiting)
    (hw : ∀ r ∈ g'.waiting, r.client = client → progress.awaits access = some r.access) :
    g.Serves g' client (progress.awaits access) (progress.brings access) where
  exclusive := ⟨hh ▸ hb, hh ▸ nodup_letIn h.distinct hout access progress⟩
  others_waiting := ho
  others_holding hold hne := by
    rw [hh]
    exact mem_letIn_of_ne hne access progress
  waits := hw
  holds other := by
    rw [hh]
    exact mem_letIn hout access progress other

/-- A request of a client who is not around. -/
theorem serves_request {g : Guard τ} (h : g.Exclusive) {client : τ}
    (hnew : ∀ r ∈ g.waiting, r.client ≠ client) (hout : ∀ hold ∈ g.holding, hold.client ≠ client)
    (access : Access) :
    g.Serves (g.request client access).1 client ((g.request client access).2.awaits access)
      ((g.request client access).2.brings access) := by
  have hasked : Balanced { g with entry := (g.entry.request client).1 } g.holding 0 :=
    ⟨h.balanced.counted, h.balanced.single⟩
  have hb := hasked.afterEntry client access (g.entry.request client).2
  have hh := holding_afterEntry { g with entry := (g.entry.request client).1 } client access
    (g.entry.request client).2
  have hw := waiting_afterEntry { g with entry := (g.entry.request client).1 } client access
    (g.entry.request client).2
  unfold request
  simp only
  generalize afterEntry { g with entry := (g.entry.request client).1 } client access
    (g.entry.request client).2 = after at hb hh hw
  obtain ⟨after, progress⟩ := after
  simp only at hb hh hw
  -- Whoever waits besides the one who asks has waited before.
  have hold : ∀ r ∈ after.waiting, r ∈ g.waiting := fun r hm => hw ▸ hm
  cases progress with
  | granted =>
    refine serves_of_letIn h hout ⟨hb.counted, hb.single⟩ (by rw [hh]; rfl) ?_ ?_
    · exact fun r hm _ => hold r hm
    · exact fun r hm he => absurd he (hnew r (hold r hm))
  | failed =>
    refine serves_of_letIn h hout hb hh ?_ ?_
    · exact fun r hm _ => hold r hm
    · exact fun r hm he => absurd he (hnew r (hold r hm))
  | waiting stage =>
    refine serves_of_letIn h hout ⟨hb.counted, hb.single⟩ hh ?_ ?_
    · intro r hm hne
      rcases List.mem_append.mp hm with hm | hm
      · exact hold r hm
      · rw [List.mem_singleton.mp hm] at hne
        exact absurd rfl hne
    · intro r hm he
      rcases List.mem_append.mp hm with hm | hm
      · exact absurd he (hnew r (hold r hm))
      · rw [List.mem_singleton.mp hm]
        rfl

variable [DecidableEq τ]

/-- Looking at a request at its semaphore changes nothing about who is inside. -/
theorem holding_advance (g : Guard τ) (r : Request τ) : (g.advance r).1.holding = g.holding := by
  unfold advance
  split
  · exact holding_afterEntry _ r.client r.access _
  · exact holding_afterExclusion _ r.access _

/-- Looking at a request at its semaphore changes nothing about who waits. -/
theorem waiting_advance (g : Guard τ) (r : Request τ) : (g.advance r).1.waiting = g.waiting := by
  unfold advance
  split
  · exact waiting_afterEntry _ r.client r.access _
  · exact waiting_afterExclusion _ r.access _

/-- Looking at a request picks a permit up or leaves it where it is. -/
theorem Balanced.advance {g : Guard τ} {holding : List (Hold τ)} (h : g.Balanced holding 0)
    (r : Request τ) :
    (g.advance r).1.Balanced (letIn holding r.client r.access (g.advance r).2) 0 := by
  unfold Guard.advance
  split
  · have hasked : Balanced { g with entry := (g.entry.poll r.client).1 } holding 0 :=
      ⟨h.counted, h.single⟩
    exact hasked.afterEntry r.client r.access _
  · have hspare := Semaphore.spare_poll g.exclusion r.client
    have hsingle := h.single
    have hasked : Balanced { g with exclusion := (g.exclusion.poll r.client).1 } holding
        (if (g.exclusion.poll r.client).2 = .granted then 1 else 0) :=
      ⟨h.counted, by simp only; omega⟩
    exact hasked.afterExclusion r.client r.access

/-- The request that is found is one of the client. -/
theorem mem_of_find? {g : Guard τ} {client : τ} {r : Request τ} (h : g.find? client = some r) :
    r ∈ g.waiting ∧ r.client = client := by
  have hclient := List.find?_some h
  exact ⟨List.mem_of_find?_eq_some h, of_decide_eq_true hclient⟩

/-- A look at the request of a client who waits for some access. -/
theorem serves_poll {g : Guard τ} (h : g.Exclusive) {client : τ} {access : Access}
    (hw : ∀ r ∈ g.waiting, r.client = client → r.access = access)
    (hout : ∀ hold ∈ g.holding, hold.client ≠ client) {progress : Progress}
    (hp : (g.poll client).2 = some progress) :
    g.Serves (g.poll client).1 client (progress.awaits access) (progress.brings access) := by
  unfold poll at hp ⊢
  cases hf : g.find? client with
  | none =>
    rw [hf] at hp
    cases hp
  | some r =>
    have hfound := mem_of_find? hf
    have hclient : r.client = client := hfound.2
    have haccess : r.access = access := hw r hfound.1 hclient
    have hb := h.balanced.advance r
    have hh := holding_advance g r
    have hwaiting := waiting_advance g r
    rw [hclient, haccess] at hb
    simp only [hf] at hp ⊢
    generalize g.advance r = after at hb hh hwaiting hp
    obtain ⟨after, came⟩ := after
    simp only at hb hh hwaiting hp
    -- A request that has come to something is taken from those that wait.
    have hgone : ∀ other ∈ (after.forget client).waiting,
        other ∈ g.waiting ∧ other.client ≠ client := by
      intro other hm
      have hmem := List.mem_filter.mp hm
      exact ⟨hwaiting ▸ hmem.1, of_decide_eq_true hmem.2⟩
    cases came with
    | granted =>
      cases hp
      refine serves_of_letIn h hout ⟨hb.counted, hb.single⟩ ?_ ?_ ?_
      · simp only [forget, hh, haccess, letIn]
      · exact fun other hm _ => (hgone other hm).1
      · exact fun other hm he => absurd he (hgone other hm).2
    | failed =>
      cases hp
      refine serves_of_letIn h hout ⟨hb.counted, hb.single⟩ hh ?_ ?_
      · exact fun other hm _ => (hgone other hm).1
      · exact fun other hm he => absurd he (hgone other hm).2
    | waiting stage =>
      cases hp
      refine serves_of_letIn h hout ⟨hb.counted, hb.single⟩ hh ?_ ?_
      · intro other hm hne
        obtain ⟨before, hbefore, rfl⟩ := List.mem_map.mp hm
        split at hne
        next he => exact absurd he hne
        next he =>
          rw [if_neg he]
          exact hwaiting ▸ hbefore
      · intro other hm he
        obtain ⟨before, hbefore, rfl⟩ := List.mem_map.mp hm
        rw [hwaiting] at hbefore
        split at he
        next hb' =>
          rw [if_pos hb', Progress.awaits, hw before hbefore hb']
        next hne => exact absurd he hne

/-- A client withdraws a request. -/
theorem serves_cancel {g : Guard τ} (h : g.Exclusive) {client : τ}
    (hout : ∀ hold ∈ g.holding, hold.client ≠ client) :
    g.Serves (g.cancel client) client none none := by
  have hnot : ∀ access, ⟨client, access⟩ ∈ g.holding ↔ (none : Option Access) = some access :=
    fun access => ⟨fun hm => absurd rfl (hout _ hm), fun he => nomatch he⟩
  have hsingle := h.balanced.single
  have hgone : ∀ r ∈ (g.forget client).waiting, r ∈ g.waiting ∧ r.client ≠ client := by
    intro r hm
    have hmem := List.mem_filter.mp hm
    exact ⟨hmem.1, of_decide_eq_true hmem.2⟩
  unfold cancel
  cases hf : g.find? client with
  | none =>
    have hnone := List.find?_eq_none.mp hf
    refine ⟨h, fun r hm _ => hm, fun hold _ => Iff.rfl, ?_, hnot⟩
    exact fun r hm he => absurd (decide_eq_true he) (hnone r hm)
  | some r =>
    simp only
    cases r.stage with
    | entry =>
      exact ⟨⟨⟨h.balanced.counted, hsingle⟩, h.distinct⟩, fun r hm _ => (hgone r hm).1,
        fun hold _ => Iff.rfl, fun r hm he => absurd he (hgone r hm).2, hnot⟩
    | exclusion =>
      have hspare := Semaphore.spare_cancel g.exclusion client
      refine ⟨⟨⟨h.balanced.counted, ?_⟩, h.distinct⟩, fun r hm _ => (hgone r hm).1,
        fun hold _ => Iff.rfl, fun r hm he => absurd he (hgone r hm).2, hnot⟩
      simp only [forget]
      omega

/-- A list without the one entry of a client. -/
theorem exists_filter_eq {α : Type} (key : α → τ) {list : List α} (hn : (list.map key).Nodup)
    {entry : α} (hm : entry ∈ list) :
    ∃ front back, list = front ++ entry :: back ∧
      (list.filter fun other => decide (key other ≠ key entry)) = front ++ back ∧
      ∀ other ∈ front ++ back, key other ≠ key entry := by
  obtain ⟨front, back, rfl⟩ := List.append_of_mem hm
  rw [List.map_append, List.map_cons, List.nodup_middle, List.nodup_cons, ← List.map_append] at hn
  have hothers : ∀ other ∈ front ++ back, key other ≠ key entry :=
    fun other ho he => hn.1 (he ▸ List.mem_map_of_mem ho)
  refine ⟨front, back, rfl, ?_, hothers⟩
  rw [List.filter_append, List.filter_cons_of_neg (by simp), ← List.filter_append,
    List.filter_eq_self]
  exact fun other ho => decide_eq_true (hothers other ho)

/-- Whoever leaves gives the permit back, or leaves it to the other readers. -/
theorem Exclusive.balanced_release {g : Guard τ} (h : g.Exclusive) {hold : Hold τ}
    (hm : hold ∈ g.holding) (hf : g.held? hold.client = some hold.access) :
    (g.release hold.client).Balanced (g.release hold.client).holding 0 := by
  obtain ⟨front, back, hsplit, hrest, _⟩ := exists_filter_eq Hold.client h.distinct hm
  have hcounted := h.balanced.counted
  have hsingle := h.balanced.single
  rw [hsplit, readersIn_insert] at hcounted
  rw [hsplit, writersIn_insert] at hsingle
  unfold release
  simp only [hf]
  cases ha : hold.access with
  | read =>
    rw [ha, if_pos rfl] at hcounted
    rw [ha, if_neg (fun he => nomatch he)] at hsingle
    constructor
    · simp only [uncountReader, hrest]
      omega
    · simp only [uncountReader, hrest]
      split
      · rw [Semaphore.spare_release]
        omega
      · omega
  | write =>
    rw [ha, if_neg (fun he => nomatch he)] at hcounted
    rw [ha, if_pos rfl] at hsingle
    constructor
    · simp only [hrest]
      exact hcounted
    · simp only [hrest, Semaphore.spare_release]
      omega

/-- The access that is found is that of somebody who is inside. -/
theorem mem_of_held? {g : Guard τ} {client : τ} {access : Access}
    (h : g.held? client = some access) :
    ∃ hold ∈ g.holding, hold.client = client ∧ hold.access = access := by
  obtain ⟨hold, hfound, haccess⟩ := Option.map_eq_some_iff.mp h
  have hclient := List.find?_some hfound
  exact ⟨hold, List.mem_of_find?_eq_some hfound, of_decide_eq_true hclient, haccess⟩

/-- Whoever gives access back is not inside any more, and the others still are. -/
theorem holding_release {g : Guard τ} {client : τ} {access : Access}
    (h : g.held? client = some access) :
    (g.release client).holding = g.holding.filter fun hold => decide (hold.client ≠ client) := by
  unfold release
  simp only [h]
  cases access with
  | read => rfl
  | write => rfl

/-- Giving access back changes nothing about who waits. -/
theorem waiting_release (g : Guard τ) (client : τ) : (g.release client).waiting = g.waiting := by
  unfold release
  split
  · rfl
  next access _ =>
    cases access with
    | read => rfl
    | write => rfl

/-- A client gives access back. -/
theorem serves_release {g : Guard τ} (h : g.Exclusive) {client : τ}
    (hnew : ∀ r ∈ g.waiting, r.client ≠ client) :
    g.Serves (g.release client) client none none := by
  have hw : ∀ r ∈ (g.release client).waiting, r ∈ g.waiting :=
    fun r hm => waiting_release g client ▸ hm
  cases hf : g.held? client with
  | none =>
    have hnone : ∀ hold ∈ g.holding, hold.client ≠ client := by
      intro hold hm he
      have hfind := Option.map_eq_none_iff.mp hf
      exact List.find?_eq_none.mp hfind hold hm (decide_eq_true he)
    have hsame : g.release client = g := by
      simp only [release, hf]
    rw [hsame]
    exact ⟨h, fun r hm _ => hm, fun hold _ => Iff.rfl, fun r hm he => absurd he (hnew r hm),
      fun access => ⟨fun hm => absurd rfl (hnone _ hm), fun he => nomatch he⟩⟩
  | some access =>
    have hh := holding_release hf
    obtain ⟨hold, hm, hclient, haccess⟩ := mem_of_held? hf
    rw [← hclient, ← haccess] at hf
    have hb := h.balanced_release hm hf
    rw [hclient] at hb
    refine ⟨⟨hb, ?_⟩, fun r hr _ => hw r hr, ?_, fun r hr he => absurd he (hnew r (hw r hr)), ?_⟩
    · rw [hh]
      exact h.distinct.sublist (List.filter_sublist.map _)
    · intro other hne
      rw [hh, List.mem_filter]
      exact ⟨fun ho => ho.1, fun ho => ⟨ho, decide_eq_true hne⟩⟩
    · intro other
      rw [hh, List.mem_filter]
      exact ⟨fun ho => absurd rfl (of_decide_eq_true ho.2), fun he => nomatch he⟩

end Guard

end EmbeddedSql.Lock
