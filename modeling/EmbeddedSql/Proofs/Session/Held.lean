import EmbeddedSql.Proofs.Session.Ledger

/-!
# Working on one call

A move takes one call out of the books, works on it with the functions of the
system, and puts it back at another stage. For each function there is a lemma
about the books of the other calls, and a lemma about the books of all if the
function is the one that puts the call back.
-/

namespace EmbeddedSql.Session.System

open Sql Lock

variable {s t : System} {first : Document} {owners : List String} {record : List Entry}
  {hand : Nat} {call : Call} {carries : Bool}

/-! ## Taking out and putting back -/

/-- A call stands where it stood when another one is put at another stage. -/
theorem getElem?_setStage_of_ne {number : Nat} (h : number ≠ hand) (stage : Stage) :
    (s.setStage hand stage).calls[number]? = s.calls[number]? :=
  List.getElem?_modify_ne _ _ (Ne.symm h)

/-- A call that is put at a stage stands there. -/
theorem getElem?_setStage_self (h : (s.calls[hand]?).map (·.call) = some call) (stage : Stage) :
    (s.setStage hand stage).calls[hand]? = some ⟨call, stage⟩ := by
  obtain ⟨activity, ha, rfl⟩ := Option.map_eq_some_iff.mp h
  simp [setStage, ha]

/-- Wherever a call is put, what the calls are stays the same. -/
theorem map_call_setStage (s : System) (hand number : Nat) (stage : Stage) :
    ((s.setStage hand stage).calls[number]?).map (·.call) =
      (s.calls[number]?).map (·.call) := by
  simp only [setStage, List.getElem?_modify]
  cases s.calls[number]? with
  | none => rfl
  | some activity =>
    by_cases he : hand = number
    · simp [he]
    · simp [he]

/-- The books of a call do not depend on where other calls stand. -/
theorem Accounted.change {owners' : List String} {number : Nat} {stage : Stage}
    (h : Accounted s owners record number call stage) (ho : owners <+: owners')
    (hs : stage.holdsCommit = true → t.stored = s.stored)
    (hc : ∀ guard, stage = .queued guard → t.closedAt guard = s.closedAt guard) :
    Accounted t owners' record number call stage := by
  have hm := h.mono ho (fun entry he => nomatch he : Unlogged [] number) hs hc
  rwa [List.append_nil] at hm

/-- A call is taken out of the books. -/
theorem Sound.hold (h : s.Sound first owners record) {number : Nat} {activity : Activity}
    (ha : s.calls[number]? = some activity) :
    s.Held first owners record number activity.call activity.stage.holdsCommit where
  toLedger := h.toLedger
  present := by rw [ha]; rfl
  commit := by
    refine h.commit.mono fun other ho => ?_
    rcases ho with ho | ho
    · exact ho.2
    · exact ⟨activity, by rw [ho.1, ha], ho.2⟩
  accounted _ ho := h.accounted ho

/-- The books do not depend on where the call stands that is taken out. -/
theorem Held.setStage (h : s.Held first owners record hand call carries) (stage : Stage) :
    (s.setStage hand stage).Held first owners record hand call carries where
  chained := h.chained
  numbered entry he := by rw [map_call_setStage]; exact h.numbered entry he
  distinct := h.distinct
  owned := h.owned
  known := h.known
  closes := h.closes
  present := by rw [map_call_setStage]; exact h.present
  commit := by
    refine h.commit.mono fun other ho => ?_
    rcases ho with ⟨hne, activity, ha, hc⟩ | ho
    · rw [getElem?_setStage_of_ne hne] at ha
      exact .inl ⟨hne, activity, ha, hc⟩
    · exact .inr ho
  accounted hne ha := by
    rw [getElem?_setStage_of_ne hne] at ha
    exact (h.accounted hne ha).change (List.prefix_refl _) (fun _ => rfl) fun _ _ => rfl

/-- A call is put back into the books where it stands. -/
theorem Held.put (h : s.Held first owners record hand call carries) {stage : Stage}
    (hp : s.calls[hand]? = some ⟨call, stage⟩) (hc : stage.holdsCommit = carries)
    (ha : Accounted s owners record hand call stage) : s.Sound first owners record where
  toLedger := h.toLedger
  commit := by
    refine h.commit.mono fun number hn => ?_
    by_cases he : number = hand
    · obtain ⟨activity, hactivity, hholds⟩ := hn
      rw [he, hp] at hactivity
      cases hactivity
      exact .inr ⟨he, hc ▸ hholds⟩
    · exact .inl ⟨he, hn⟩
  accounted {number activity} hn := by
    by_cases he : number = hand
    · rw [he, hp] at hn
      cases hn
      rw [he]
      exact ha
    · exact h.accounted he hn

/-- A call is put back into the books at another stage. -/
theorem Held.putAt (h : s.Held first owners record hand call carries) {stage : Stage}
    (hc : stage.holdsCommit = carries) (ha : Accounted s owners record hand call stage) :
    (s.setStage hand stage).Sound first owners record :=
  (h.setStage stage).put (getElem?_setStage_self h.present stage) hc
    (ha.change (List.prefix_refl _) (fun _ => rfl) fun _ _ => rfl)

/-- The call that is taken out takes effect. It changes the stored document only
under the commit lock. -/
theorem Held.store (h : s.Held first owners record hand call carries)
    (hu : Unlogged record hand) {changed : Document} (hn : (call.outcome s.stored).1 = changed)
    (hc : changed = s.stored ∨ carries = true) :
    ({ s with stored := changed } : System).Held first owners
      (record ++ [⟨hand, call, s.stored⟩]) hand call carries where
  chained := by
    have hlast : Chained (Entry.after ⟨hand, call, s.stored⟩) [] changed := by
      rw [Entry.after, hn]
      exact .nil changed
    exact h.chained.append hlast.cons
  numbered entry he := by
    rcases List.mem_append.mp he with he | he
    · exact h.numbered entry he
    · rw [List.mem_singleton.mp he]
      exact h.present
  distinct := by
    rw [List.map_append, List.nodup_append]
    refine ⟨h.distinct, List.pairwise_singleton _ _, ?_⟩
    intro number hm other ho
    obtain ⟨entry, he, rfl⟩ := List.mem_map.mp hm
    have hother : other = hand := List.mem_singleton.mp ho
    rw [hother]
    exact hu entry he
  owned := h.owned
  known := h.known
  closes := h.closes
  present := h.present
  commit := h.commit
  accounted {number activity} hne ha := by
    refine (h.accounted hne ha).mono (List.prefix_refl _) ?_ ?_ fun _ _ => rfl
    · intro entry he
      rw [List.mem_singleton.mp he]
      exact Ne.symm hne
    · intro hholds
      rcases hc with hc | hc
      · exact hc
      · -- Two calls would hold the commit lock.
        have hother : s.Commits number := ⟨activity, ha, hholds⟩
        exact absurd (h.commit.alone number hand (.inl ⟨hne, hother⟩) (.inr ⟨rfl, hc⟩)) hne

/-- The call that is taken out takes effect and stores nothing. -/
theorem Held.note (h : s.Held first owners record hand call carries)
    (hu : Unlogged record hand) (hn : (call.outcome s.stored).1 = s.stored) :
    s.Held first owners (record ++ [⟨hand, call, s.stored⟩]) hand call carries :=
  h.store hu hn (.inl rfl)

/-- What was noted stands in the record. -/
theorem logged_note (record : List Entry) (hand : Nat) (call : Call) (document : Document) :
    Logged (record ++ [⟨hand, call, document⟩]) hand (call.outcome document).2 :=
  ⟨⟨hand, call, document⟩, List.mem_append_right _ (List.mem_singleton_self _), rfl, rfl⟩

/-! ## Guards -/

/-- A guard that is changed is the new one, if there is such a guard, and all others stay. -/
theorem guardAt_setGuard (s : System) (number other : Nat) (guard : Guard Nat) :
    (s.setGuard number guard).guardAt other =
      if number = other ∧ number < s.guards.length then guard else s.guardAt other := by
  simp only [guardAt, setGuard, List.getD_eq_getElem?_getD, List.getElem?_set]
  by_cases he : number = other
  · subst he
    by_cases hl : number < s.guards.length
    · simp [hl]
    · simp [hl]
  · simp [he]

/-- The guards of a system with no calls are new. -/
theorem guardAt_ofDocument (config : Config) (document : Document) (known : List String)
    (number : Nat) : (ofDocument config document known).guardAt number = Guard.new := by
  simp only [guardAt, ofDocument, List.getD_eq_getElem?_getD, List.getElem?_map]
  cases known[number]? with
  | none => rfl
  | some table => rfl

/-- When a handle is opened all guards are open. -/
theorem closedAt_ofDocument (config : Config) (document : Document) (known : List String)
    (number : Nat) : (ofDocument config document known).closedAt number = false := by
  rw [closedAt, guardAt_ofDocument]
  rfl

/-- The books stay in order if the guards and the commit lock change and no guard
is opened or closed. -/
theorem Held.change (h : s.Held first owners record hand call carries) {owners' : List String}
    {carries' : Bool} (hcalls : t.calls = s.calls) (hstored : t.stored = s.stored)
    (hclosed : ∀ number, t.closedAt number = s.closedAt number) (ho : owners <+: owners')
    (howned : owners'.length = t.guards.length)
    (hknown : ∀ entry ∈ t.known, owners'[entry.2]? = some entry.1 ∧ t.closedAt entry.2 = false)
    (hcloses : ∀ number, (t.guardAt number).Closes (t.closedAt number))
    (hcommit : t.commit.Excludes fun number =>
      (number ≠ hand ∧ s.Commits number) ∨ (number = hand ∧ carries' = true)) :
    t.Held first owners' record hand call carries' where
  chained := by rw [hstored]; exact h.chained
  numbered := by rw [hcalls]; exact h.numbered
  distinct := h.distinct
  owned := howned
  known := hknown
  closes := hcloses
  present := by rw [hcalls]; exact h.present
  commit := by
    refine hcommit.mono fun number hn => ?_
    rcases hn with ⟨hne, activity, ha, hc⟩ | hn
    · rw [hcalls] at ha
      exact .inl ⟨hne, activity, ha, hc⟩
    · exact .inr hn
  accounted hne ha := by
    rw [hcalls] at ha
    exact (h.accounted hne ha).change ho (fun _ => hstored) fun guard _ => hclosed guard

/-- A guard that is as open or closed as the one before closes and opens nothing. -/
theorem closedAt_setGuard {number : Nat} {guard : Guard Nat}
    (hg : guard.Closes (s.closedAt number)) (other : Nat) :
    (s.setGuard number guard).closedAt other = s.closedAt other := by
  rw [closedAt, guardAt_setGuard]
  split
  next he =>
    rw [← he.1]
    exact hg.entry
  next => rfl

/-- A guard that is neither opened nor closed leaves the books in order. -/
theorem Held.setGuard (h : s.Held first owners record hand call carries) {number : Nat}
    {guard : Guard Nat} (hg : guard.Closes (s.closedAt number)) :
    (s.setGuard number guard).Held first owners record hand call carries := by
  have hclosed := closedAt_setGuard hg
  refine h.change rfl rfl hclosed (List.prefix_refl _) ?_ ?_ ?_ h.commit
  · rw [h.owned]
    exact (List.length_set ..).symm
  · intro entry he
    rw [hclosed]
    exact h.known entry he
  · intro other
    rw [hclosed, guardAt_setGuard]
    split
    next he =>
      rw [← he.1]
      exact hg
    next => exact h.closes other

/-- The commit lock changes, and whether the call that is taken out carries it. -/
theorem Held.setCommit (h : s.Held first owners record hand call carries)
    {commit : Semaphore Nat} {carries' : Bool} (hc : commit.Excludes fun number =>
      (number ≠ hand ∧ s.Commits number) ∨ (number = hand ∧ carries' = true)) :
    ({ s with commit } : System).Held first owners record hand call carries' :=
  h.change rfl rfl (fun _ => rfl) (List.prefix_refl _) h.owned h.known h.closes hc

/-- A call gives its locks back. -/
theorem Held.unlock {locks : Locks} (h : s.Held first owners record hand call locks.commit) :
    (s.unlock hand locks).Held first owners record hand call false := by
  obtain ⟨guard, commit⟩ := locks
  have hreleased : (if commit then { s with commit := s.commit.release } else s).Held first owners
      record hand call false := by
    cases commit with
    | false => exact h
    | true =>
      have hc := h.commit.release (.inr ⟨rfl, rfl⟩ : (hand ≠ hand ∧ s.Commits hand) ∨ _)
      refine h.setCommit (hc.mono fun number hn => ?_)
      rcases hn with hn | hn
      · exact ⟨.inl hn, hn.1⟩
      · cases hn.2
  cases guard with
  | none => exact hreleased
  | some number =>
    simp only [System.unlock]
    exact hreleased.setGuard (Guard.closes_release (hreleased.closes number) hand)

/-- A call returns and gives its locks back. -/
theorem Held.finish {locks : Locks} (h : s.Held first owners record hand call locks.commit)
    {result : Except Error Reply} (hl : counts result = true → Logged record hand result) :
    (s.finish hand locks result).Sound first owners record :=
  h.unlock.putAt rfl (.finished hl)

/-! ## Asking for locks -/

/-- What a call must be like to go on with the document, given the guard that it
holds. -/
structure Ready (owners : List String) (record : List Entry) (hand : Nat) (call : Call)
    (guard : Option Nat) : Prop where
  /-- The call was checked. -/
  checked : call.Checked
  /-- The guard is one of the call's table. -/
  owns : call.Owns owners guard
  /-- The call has not taken effect. -/
  pending : Unlogged record hand

/-- A call that is ready begins to read. -/
theorem Ready.loading {guard : Option Nat} (h : Ready owners record hand call guard)
    {commit : Bool} (hc : commit = false → ∀ document, call.stores document = false) :
    Accounted s owners record hand call (.loading ⟨guard, commit⟩ none) :=
  .loading h.checked h.owns hc (fun _ _ he => nomatch he) h.pending

/-- A call takes the commit lock, which nobody holds. -/
theorem Held.takeCommit (h : s.Held first owners record hand call false)
    {commit : Semaphore Nat} (ht : commit.Excludes fun number => number = hand)
    (hfree : ∀ number, ¬ (number ≠ hand ∧ s.Commits number)) :
    ({ s with commit } : System).Held first owners record hand call true := by
  refine h.setCommit (ht.mono fun number hn => ?_)
  rcases hn with hn | hn
  · exact absurd hn (hfree number)
  · exact hn.1

/-- A call asks for the commit lock. -/
theorem Held.askCommit (h : s.Held first owners record hand call false) {guard : Option Nat}
    (hr : Ready owners record hand call guard) :
    (s.askCommit hand guard).Sound first owners record := by
  unfold System.askCommit
  cases ha : (s.commit.request hand).2 with
  | granted =>
    have hg := h.commit.request_granted ha
    have hheld := h.takeCommit hg.1 fun number hn => hg.2 number (.inl hn)
    simp only [ha]
    exact hheld.putAt rfl (hr.loading fun he => nomatch he)
  | failed => exact absurd ha (Semaphore.request_ne_failed h.commit.isOpen hand)
  | waiting =>
    have hne : (s.commit.request hand).2 ≠ .granted := by
      rw [ha]
      exact fun he => nomatch he
    have hheld := h.setCommit (h.commit.request_waiting hne)
    simp only [ha]
    exact hheld.putAt rfl (.committing hr.checked hr.owns hr.pending)

/-- A statement that asks for a guard of its table is ready when it gets it. -/
theorem ready_of_asks {statement : Statement} (ha : statement.AsksGuard) {number : Nat}
    (ho : owners[number]? = some statement.table) (hp : Unlogged record hand) :
    Ready owners record hand (.execute statement) (some number) where
  checked other he := by
    cases he
    exact Statement.precheck_of_asksGuard ha
  owns other he := by
    cases he
    exact ⟨statement, rfl, ho⟩
  pending := hp

/-- A statement gets access under a guard. -/
theorem Held.enter {statement : Statement} {number : Nat}
    (h : s.Held first owners record hand (.execute statement) false)
    (hr : Ready owners record hand (.execute statement) (some number)) :
    (s.enter hand statement number).Sound first owners record := by
  cases statement with
  | select statement => exact h.putAt rfl (hr.loading fun _ => Call.stores_select statement)
  | insert statement => exact h.askCommit hr
  | update statement => exact h.askCommit hr
  | delete statement => exact h.askCommit hr
  | create statement => exact h.askCommit hr
  | drop statement => exact h.askCommit hr

/-- A statement goes on with what an open guard has answered. -/
theorem Held.afterGuard {statement : Statement} {number : Nat} {progress : Progress}
    (h : s.Held first owners record hand (.execute statement) false) (ha : statement.AsksGuard)
    (ho : owners[number]? = some statement.table) (hopen : s.closedAt number = false)
    (hp : Unlogged record hand) (hf : progress ≠ .failed) :
    (s.afterGuard hand statement number progress).Sound first owners record := by
  cases progress with
  | granted => exact h.enter (ready_of_asks ha ho hp)
  | failed => exact absurd rfl hf
  | waiting stage =>
    refine h.putAt rfl (.queued ha ho ?_)
    rw [if_neg (by rw [hopen]; exact Bool.false_ne_true)]
    exact hp

/-- A statement asks for an open guard. -/
theorem Held.askGuard {statement : Statement} {number : Nat}
    (h : s.Held first owners record hand (.execute statement) false) (ha : statement.AsksGuard)
    (ho : owners[number]? = some statement.table) (hopen : s.closedAt number = false)
    (hp : Unlogged record hand) :
    (s.askGuard hand statement number).Sound first owners record := by
  have hcloses := h.closes number
  have hf := Guard.request_ne_failed (hopen ▸ hcloses) hand (accessOf statement)
  have hasked := Guard.closes_request hcloses hand (accessOf statement)
  have hstill := (closedAt_setGuard hasked number).trans hopen
  exact (h.setGuard hasked).afterGuard ha ho hstill hp hf

/-- A known table has an open guard that it owns. -/
theorem Ledger.guardOf? (h : s.Ledger first owners record) {table : String} {number : Nat}
    (hg : s.guardOf? table = some number) :
    owners[number]? = some table ∧ s.closedAt number = false := by
  obtain ⟨entry, hf, rfl⟩ := Option.map_eq_some_iff.mp hg
  have ht := List.find?_some hf
  have hk := h.known entry (List.mem_of_find?_eq_some hf)
  rw [of_decide_eq_true ht] at hk
  exact hk

/-! ## New guards -/

/-- A table that is not known gets a new guard behind all others. -/
theorem register_of_unknown {table : String} (h : s.guardOf? table = none) :
    s.register table =
      { s with
        guards := s.guards ++ [Guard.new]
        known := s.known ++ [(table, s.guards.length)] } := by
  simp only [System.register, h]

/-- A table that gets a guard leaves all guards that were there. -/
theorem guardAt_register (s : System) (table : String) (number : Nat) :
    (s.register table).guardAt number = s.guardAt number := by
  unfold System.register
  split
  next => rfl
  next =>
    simp only [guardAt, List.getD_eq_getElem?_getD, List.getElem?_append]
    split
    · rfl
    next hl =>
      rw [List.getElem?_eq_none (Nat.le_of_not_lt hl)]
      cases number - s.guards.length with
      | zero => rfl
      | succ n => rfl

/-- A guard that there never was is open. -/
theorem closedAt_of_le {number : Nat} (h : s.guards.length ≤ number) :
    s.closedAt number = false := by
  simp only [closedAt, guardAt, List.getD_eq_getElem?_getD, List.getElem?_eq_none h]
  rfl

/-- A table that was registered has a guard. -/
theorem exists_guardOf?_register (s : System) (table : String) :
    ∃ number, (s.register table).guardOf? table = some number := by
  cases hg : s.guardOf? table with
  | some number =>
    refine ⟨number, ?_⟩
    simp only [System.register, hg]
  | none =>
    have hnone : s.known.find? (fun entry => decide (entry.1 = table)) = none := by
      simpa [guardOf?] using hg
    refine ⟨s.guards.length, ?_⟩
    rw [register_of_unknown hg]
    simp [guardOf?, hnone]

/-- A table becomes known, with a guard that it owns. -/
theorem Held.register (h : s.Held first owners record hand call carries) (table : String) :
    ∃ owners', (s.register table).Held first owners' record hand call carries ∧
      owners <+: owners' := by
  have hclosed : ∀ number, (s.register table).closedAt number = s.closedAt number := by
    intro number
    rw [closedAt, guardAt_register, closedAt]
  cases hg : s.guardOf? table with
  | some number =>
    have hsame : s.register table = s := by
      simp only [System.register, hg]
    rw [hsame]
    exact ⟨owners, h, List.prefix_refl _⟩
  | none =>
    have hr := register_of_unknown hg
    have hprefix : owners <+: owners ++ [table] := List.prefix_append owners [table]
    refine ⟨owners ++ [table], ?_, hprefix⟩
    refine h.change (by rw [hr]) (by rw [hr]) hclosed hprefix ?_ ?_ ?_ (by rw [hr]; exact h.commit)
    · simp [hr, h.owned]
    · intro entry he
      rw [hclosed]
      rw [hr] at he
      rcases List.mem_append.mp he with he | he
      · exact ⟨owner_mono hprefix (h.known entry he).1, (h.known entry he).2⟩
      · rw [List.mem_singleton.mp he]
        refine ⟨?_, closedAt_of_le (Nat.le_refl _)⟩
        simp [← h.owned]
    · intro number
      rw [hclosed, guardAt_register]
      exact h.closes number

end EmbeddedSql.Session.System
