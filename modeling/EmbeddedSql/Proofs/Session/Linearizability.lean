import EmbeddedSql.Proofs.Session.Course

/-!
# Calls side by side come to what they come to one after another

Whatever calls are under way on one handle, and in whatever order they go on,
expire and are given up, there is an order in which the calls could have been
made one after another: each has the result that it was given, and the last of
them leaves the stored document. The order is that of the record, in which the
calls stand as they took effect. Calls that took effect without telling anyone
are left out, and because they stored nothing, nobody misses them.
-/

namespace EmbeddedSql.Session

open Sql Lock

namespace System

variable {s t : System} {first : Document} {owners : List String} {record : List Entry}

/-! ## The books of a run -/

/-- The books of a system with no calls are in order. -/
theorem sound_ofDocument (config : Config) (document : Document) (known : List String) :
    (ofDocument config document known).Sound document known [] := by
  have hnew := guardAt_ofDocument config document known
  have hopen := closedAt_ofDocument config document known
  constructor
  · refine ⟨.nil document, fun entry he => absurd he List.not_mem_nil, List.nodup_nil, ?_, ?_, ?_⟩
    · exact (List.length_map _).symm
    · intro entry he
      exact ⟨List.mem_zipIdx_iff_getElem?.mp he, hopen entry.2⟩
    · intro number
      rw [hnew, hopen]
      exact Guard.closes_new
  · exact Semaphore.excludes_ofPermits.mono fun number hn => by
      obtain ⟨activity, ha, _⟩ := hn
      cases ha
  · intro number activity ha
    cases ha

/-- A run keeps the books, and the calls that take effect in it are added to the
record. -/
theorem Sound.run (h : s.Sound first owners record) {moves : List Move}
    (hr : s.run moves = some t) :
    ∃ owners', t.Sound first owners' (record ++ s.record moves) := by
  induction moves generalizing s owners record with
  | nil =>
    cases hr
    rw [System.record, List.append_nil]
    exact ⟨owners, h⟩
  | cons move rest ih =>
    obtain ⟨u, hm, hrest⟩ := Option.bind_eq_some_iff.mp hr
    obtain ⟨more, hu⟩ := h.move hm
    have hi := ih hu hrest
    have hrecord : s.record (move :: rest) = s.effects move ++ u.record rest := by
      simp only [System.record, hm, Option.elim]
    rw [hrecord, ← List.append_assoc]
    exact hi

/-! ## What takes effect -/

/-- A call takes effect on the stored document. -/
theorem before_of_mem_effects {move : Move} {entry : Entry} (he : entry ∈ s.effects move) :
    entry.before = s.stored := by
  have hone : ∀ number call, entry ∈ [(⟨number, call, s.stored⟩ : Entry)] →
      entry.before = s.stored := by
    intro number call hm
    rw [List.mem_singleton.mp hm]
  unfold effects at he
  split at he
  next =>
    split at he
    · exact hone _ _ he
    · cases he
  next =>
    split at he
    · split at he
      · cases he
      · exact hone _ _ he
    · split at he
      · cases he
      · exact hone _ _ he
    · cases he
  next =>
    split at he
    · exact hone _ _ he
    · cases he
  next =>
    split at he
    · split at he
      · cases he
      -- When a guard is closed, those who wait for it take effect one behind the other, and
      -- change nothing.
      · obtain ⟨activity, _, _, heq⟩ := mem_waitingFor.mp he
        rw [heq]
    · cases he
  next => cases he

/-- A call that takes effect by anything but its write stores nothing. -/
theorem Sound.after_of_mem_effects (h : s.Sound first owners record) {move : Move}
    (hm : s.move move = some t) {entry : Entry} (he : entry ∈ s.effects move) :
    entry.after = entry.before ∨ move = .write entry.number none := by
  by_cases hw : ∃ number, move = .write number none
  · obtain ⟨number, rfl⟩ := hw
    right
    simp only [effects] at he
    split at he
    · rw [List.mem_singleton.mp he]
    · cases he
  · left
    obtain ⟨more, ht⟩ := h.move hm
    have hstored := stored_move hm fun number hn => hw ⟨number, hn⟩
    -- The new entries lead from the stored document back to it.
    have hchained := h.chained.behind ht.chained
    rw [hstored] at hchained
    rw [before_of_mem_effects he]
    exact hchained.after_of_before (fun _ => before_of_mem_effects) entry he

/-- A call that takes effect in a run stores nothing, unless its write takes
place. -/
theorem Sound.after_of_mem_record (h : s.Sound first owners record) {moves : List Move}
    (hr : s.run moves = some t) {entry : Entry} (he : entry ∈ s.record moves) :
    entry.after = entry.before ∨ .write entry.number none ∈ moves := by
  induction moves generalizing s owners record with
  | nil => cases he
  | cons move rest ih =>
    obtain ⟨u, hm, hrest⟩ := Option.bind_eq_some_iff.mp hr
    obtain ⟨more, hu⟩ := h.move hm
    simp only [System.record, hm, Option.elim] at he
    rcases List.mem_append.mp he with he | he
    · rcases h.after_of_mem_effects hm he with hkeeps | rfl
      · exact .inl hkeeps
      · exact .inr (List.mem_cons_self ..)
    · rcases ih hu hrest he with hkeeps | hw
      · exact .inl hkeeps
      · exact .inr (List.mem_cons_of_mem _ hw)

/-- A call whose write takes place in a run takes effect in it. -/
theorem mem_record_of_write {moves : List Move} (hr : s.run moves = some t) {number : Nat}
    (hw : .write number none ∈ moves) : ∃ entry ∈ s.record moves, entry.number = number := by
  induction moves generalizing s with
  | nil => cases hw
  | cons move rest ih =>
    obtain ⟨u, hm, hrest⟩ := Option.bind_eq_some_iff.mp hr
    simp only [System.record, hm, Option.elim]
    rcases List.mem_cons.mp hw with rfl | hw
    · have hm' : s.writeHappens number none = some u := hm
      obtain ⟨call, locks, document, rows, ha, _⟩ := exists_of_writeHappens hm'
      have heffects : s.effects (.write number none) = [⟨number, call, s.stored⟩] := by
        simp only [effects, ha]
      rw [heffects]
      exact ⟨_, List.mem_append_left _ (List.mem_singleton_self _), rfl⟩
    · obtain ⟨entry, he, hn⟩ := ih hrest hw
      exact ⟨entry, List.mem_append_right _ he, hn⟩

/-! ## Which calls are put in order -/

/-- A call has returned with a result. -/
def Returned (s : System) (number : Nat) (result : Except Error Reply) : Prop :=
  ∃ call, s.calls[number]? = some ⟨call, .finished result⟩

/-- A call has returned or was given up. -/
def HasEnded (s : System) (number : Nat) : Prop :=
  ∃ call stage, s.calls[number]? = some ⟨call, stage⟩ ∧ stage.Ended

/-- Whether a call takes part in the order of a run. One that has returned does if
its result tells what came of it; one that was given up, or is still under way,
does if its write has taken place. -/
def takesPart (s : System) (moves : List Move) (number : Nat) : Bool :=
  match s.calls[number]? with
  | none => false
  | some ⟨_, .finished result⟩ => counts result
  | some _ => decide (.write number none ∈ moves)

/-- A call whose write has taken place takes part. -/
theorem takesPart_of_write {moves : List Move} (hr : s.run moves = some t) {number : Nat}
    (hw : .write number none ∈ moves) : t.takesPart moves number = true := by
  obtain ⟨call, stage, ha, hb⟩ := behindWrite_of_mem hr hw
  cases hb with
  | storing locks document rows => simp [takesPart, ha, hw]
  | finished reply => simp [takesPart, ha, counts]
  | aborted => simp [takesPart, ha, hw]

/-- A call that takes part took effect. -/
theorem mem_record_of_takesPart {moves : List Move} (hr : s.run moves = some t)
    (h : t.Sound first owners (s.record moves)) {number : Nat}
    (hp : t.takesPart moves number = true) : ∃ entry ∈ s.record moves, entry.number = number := by
  unfold takesPart at hp
  split at hp
  next => cases hp
  next call result ha =>
    cases h.accounted ha with
    | finished logged =>
      obtain ⟨entry, he, hn, _⟩ := logged hp
      exact ⟨entry, he, hn⟩
  next => exact mem_record_of_write hr (of_decide_eq_true hp)

/-- A call that takes part and ended early took part at once. -/
theorem takesPart_of_ended {middle : System} {front back : List Move}
    (hr : middle.run back = some t) {number : Nat} (he : middle.HasEnded number)
    (hp : t.takesPart (front ++ back) number = true) : middle.takesPart front number = true := by
  obtain ⟨call, stage, ha, hstage⟩ := he
  obtain ⟨hsame, hw⟩ := run_of_ended hr ha hstage
  cases hstage with
  | finished result => simpa [takesPart, ha, hsame] using hp
  | aborted => simpa [takesPart, ha, hsame, hw] using hp

/-- A call that takes part and has returned was given the result with which it
took effect. -/
theorem Sound.result_of_returned (h : s.Sound first owners record) {moves : List Move}
    {entry : Entry} (he : entry ∈ record) (hp : s.takesPart moves entry.number = true)
    {result : Except Error Reply} (hr : s.Returned entry.number result) :
    result = entry.result := by
  obtain ⟨call, ha⟩ := hr
  have hc : counts result = true := by simpa [takesPart, ha] using hp
  cases h.accounted ha with
  | finished logged =>
    obtain ⟨other, ho, hn, hresult⟩ := logged hc
    have hsame : other = entry := List.inj_on_of_nodup_map h.distinct ho he hn
    rw [← hresult, hsame]

/-! ## The order -/

/-- The calls that take part in a run, in the order in which they took effect. -/
def order (s : System) (moves : List Move) (t : System) : List Nat :=
  ((s.record moves).filter fun entry => t.takesPart moves entry.number).map (·.number)

/-- A call that takes part stands in the order of its entries. -/
theorem mem_order_of_mem {moves : List Move} {entries : List Entry} {number : Nat}
    (hp : t.takesPart moves number = true) (he : ∃ entry ∈ entries, entry.number = number) :
    number ∈ (entries.filter fun entry => t.takesPart moves entry.number).map (·.number) := by
  obtain ⟨entry, hm, rfl⟩ := he
  exact List.mem_map_of_mem (List.mem_filter.mpr ⟨hm, hp⟩)

/-- A call stands in the order if it takes part, and only then. -/
theorem mem_order_iff {moves : List Move} (hr : s.run moves = some t)
    (h : t.Sound first owners (s.record moves)) {number : Nat} :
    number ∈ s.order moves t ↔ t.takesPart moves number = true := by
  constructor
  · intro hn
    obtain ⟨entry, he, rfl⟩ := List.mem_map.mp hn
    exact (List.mem_filter.mp he).2
  · intro hp
    exact mem_order_of_mem hp (mem_record_of_takesPart hr h hp)

/-- A call that had ended before another one began stands in front of it. -/
theorem order_of_ended {middle : System} {front back : List Move}
    (hs : s.Sound first owners []) (hf : s.run front = some middle)
    (hb : middle.run back = some t) {earlier later : Nat} (he : middle.HasEnded earlier)
    (hl : middle.calls.length ≤ later) (hearlier : t.takesPart (front ++ back) earlier = true)
    (hlater : later ∈ s.order (front ++ back) t) :
    [earlier, later].Sublist (s.order (front ++ back) t) := by
  obtain ⟨_, hmiddle⟩ := hs.run hf
  rw [List.nil_append] at hmiddle
  rw [order, record_append hf, List.filter_append, List.map_append] at hlater ⊢
  have hfront := mem_record_of_takesPart hf hmiddle (takesPart_of_ended hb he hearlier)
  have hback : later ∉ ((s.record front).filter fun entry =>
      t.takesPart (front ++ back) entry.number).map (·.number) := by
    intro hn
    obtain ⟨entry, hm, rfl⟩ := List.mem_map.mp hn
    have hnumbered := hmiddle.numbered entry (List.mem_filter.mp hm).1
    obtain ⟨activity, ha, _⟩ := Option.map_eq_some_iff.mp hnumbered
    have hlt := (List.getElem?_eq_some_iff.mp ha).1
    omega
  have hsecond := (List.mem_append.mp hlater).resolve_left hback
  exact (List.singleton_sublist.mpr (mem_order_of_mem hearlier hfront)).append
    (List.singleton_sublist.mpr hsecond)

/-- Calls that do not take part stored nothing. -/
theorem Sound.after_of_not_takesPart (h : s.Sound first owners record) {moves : List Move}
    (hr : s.run moves = some t) {entry : Entry} (he : entry ∈ s.record moves)
    (hp : t.takesPart moves entry.number = false) : entry.after = entry.before := by
  rcases h.after_of_mem_record hr he with hkeeps | hw
  · exact hkeeps
  · rw [takesPart_of_write hr hw] at hp
    cases hp

end System

/-- An order in which the calls of a run could have been made one after another. -/
structure Linearization (config : Config) (document : Document) (known : List String)
    (moves : List Move) (s : System) (order : List Nat) : Prop where
  /-- No call is made twice. -/
  distinct : order.Nodup
  /-- The calls that take part are made, and no others. -/
  complete : ∀ number, number ∈ order ↔ s.takesPart moves number = true
  /-- A call that had ended before another one began is made before it. -/
  timely : ∀ front middle, front <+: moves →
    (System.ofDocument config document known).run front = some middle →
    ∀ earlier later, middle.HasEnded earlier → middle.calls.length ≤ later →
      earlier ∈ order → later ∈ order → [earlier, later].Sublist order
  /-- Made one after another on the first document, the calls lead to the stored
  document, and those that have returned have the results that they returned. -/
  replayed : ∃ calls results,
    List.Forall₂ (fun number call => (s.calls[number]?).map (·.call) = some call) order calls ∧
    makeAll calls ⟨config, known⟩ document = (s.stored, results) ∧
    List.Forall₂ (fun number result => ∀ given, s.Returned number given → given = result)
      order results

namespace System

/-- Whatever calls are under way on a handle, and however they go on, expire and
are given up, they could have been made one after another. -/
theorem linearization_order (config : Config) (document : Document) (known : List String)
    {moves : List Move} {s : System} (hr : (ofDocument config document known).run moves = some s) :
    Linearization config document known moves s
      ((ofDocument config document known).order moves s) := by
  have hstart := sound_ofDocument config document known
  obtain ⟨owners, hs⟩ := hstart.run hr
  rw [List.nil_append] at hs
  constructor
  · exact hs.distinct.sublist (List.filter_sublist.map _)
  · exact fun number => mem_order_iff hr hs
  · rintro front middle ⟨back, rfl⟩ hf earlier later he hl hearlier hlater
    have hback : middle.run back = some s := by
      rw [run_append, hf] at hr
      exact hr
    exact order_of_ended hstart hf hback he hl ((mem_order_iff hr hs).mp hearlier) hlater
  · have hchained := hs.chained.filter (fun entry => s.takesPart moves entry.number)
      fun entry he hp => hstart.after_of_not_takesPart hr he hp
    refine ⟨_, _, ?_, makeAll_of_chained hchained ⟨config, known⟩, ?_⟩
    · rw [order, List.forall₂_map_left_iff, List.forall₂_map_right_iff, List.forall₂_same]
      exact fun entry he => hs.numbered entry (List.mem_filter.mp he).1
    · rw [order, List.forall₂_map_left_iff, List.forall₂_map_right_iff, List.forall₂_same]
      intro entry he given hgiven
      have hm := List.mem_filter.mp he
      exact hs.result_of_returned hm.1 hm.2 hgiven

/-- A table is made; an insertion is given up after its write has taken place;
the table is removed; one of two selections that wait for it waits too long, and
the other one misses the table. -/
theorem linearization_order_of_drop :
    let moves : List Move :=
      [.begin (.execute (.create ⟨"t", false, [⟨"a", .text⟩]⟩)), .read 0 none, .resume 0,
        .write 0 none, .resume 0,
        .begin (.execute (.insert ⟨"t", .all, [[.text "x"]], .all⟩)), .read 1 none, .resume 1,
        .begin (.execute (.drop ⟨"t", false⟩)),
        .begin (.execute (.select ⟨"t", .all, []⟩)),
        .begin (.execute (.select ⟨"t", .all, []⟩)),
        .write 1 none, .abort 1, .expire 3, .resume 2, .read 2 none, .resume 2, .write 2 none,
        .resume 2, .resume 4]
    ∃ s, (ofDocument ⟨some ⟨1⟩⟩ .empty []).run moves = some s ∧
      Linearization ⟨some ⟨1⟩⟩ .empty [] moves s [0, 1, 2, 4] := by
  intro moves
  have horder : ((ofDocument ⟨some ⟨1⟩⟩ .empty []).run moves).map
      ((ofDocument ⟨some ⟨1⟩⟩ .empty []).order moves) = some [0, 1, 2, 4] := by
    decide +kernel
  obtain ⟨s, hr, ho⟩ := Option.map_eq_some_iff.mp horder
  have hlinear := linearization_order ⟨some ⟨1⟩⟩ .empty [] hr
  rw [ho] at hlinear
  exact ⟨s, hr, hlinear⟩

end System

end EmbeddedSql.Session
