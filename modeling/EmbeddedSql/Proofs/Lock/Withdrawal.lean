import EmbeddedSql.Proofs.Lock.Late

/-!
# A request that is withdrawn leaves nothing behind

Requests come to a guard, and those who are inside leave. A request that waits all the
time makes a difference to the others only as long as it waits. When it is withdrawn,
wherever it stood, and the requests have been looked at, the guard stands as if it had
never been made. How late the requests are looked at in between makes no difference
either.
-/

namespace EmbeddedSql.Lock

variable {τ : Type}

/-! ## The business of a guard -/

namespace Guard

/-- Whether an action belongs to the business of a guard: somebody asks, somebody who is
inside leaves, or a request is looked at. -/
def Allows (g : Guard τ) : Action τ → Prop
  | .event (.request _ _) => True
  | .event (.release client) => client ∈ g.holding.map (·.client)
  | .event (.cancel _) => False
  | .event .close => False
  | .look _ => True

/-- The business of a guard does not close it. -/
theorem Allows.ne_close {g : Guard τ} {action : Action τ} (h : g.Allows action) :
    action ≠ .event .close := by
  rintro rfl
  exact h

variable [DecidableEq τ]

instance (g : Guard τ) (action : Action τ) : Decidable (g.Allows action) :=
  match action with
  | .event (.request _ _) => inferInstanceAs (Decidable True)
  | .event (.release client) => inferInstanceAs (Decidable (client ∈ g.holding.map (·.client)))
  | .event (.cancel _) => inferInstanceAs (Decidable False)
  | .event .close => inferInstanceAs (Decidable False)
  | .look _ => inferInstanceAs (Decidable True)

/-- Nothing but its business goes on at a guard. -/
def Proceeds (g : Guard τ) : List (Action τ) → Prop
  | [] => True
  | action :: rest => g.Allows action ∧ (g.act action).Proceeds rest

/-- The request of a client waits, whatever is done. -/
def Keeps (client : τ) (g : Guard τ) : List (Action τ) → Prop
  | [] => client ∈ g.waiting.map (·.client)
  | action :: rest => client ∈ g.waiting.map (·.client) ∧ (g.act action).Keeps client rest

instance decidableProceeds (g : Guard τ) (actions : List (Action τ)) :
    Decidable (g.Proceeds actions) :=
  match actions with
  | [] => inferInstanceAs (Decidable True)
  | action :: rest =>
    have := decidableProceeds (g.act action) rest
    inferInstanceAs (Decidable (_ ∧ _))

instance decidableKeeps (client : τ) (g : Guard τ) (actions : List (Action τ)) :
    Decidable (g.Keeps client actions) :=
  match actions with
  | [] => inferInstanceAs (Decidable (client ∈ g.waiting.map (·.client)))
  | action :: rest =>
    have := decidableKeeps client (g.act action) rest
    inferInstanceAs (Decidable (_ ∧ _))

/-- A request that waits whatever is done waits to begin with. -/
theorem Keeps.waits {client : τ} {g : Guard τ} {actions : List (Action τ)}
    (h : g.Keeps client actions) : client ∈ g.waiting.map (·.client) := by
  cases actions with
  | nil => exact h
  | cons action rest => exact h.1

end Guard

/-- A list of actions in which each request bears a name of its own, and one that nobody
around has. -/
structure Fresh (clients : List τ) (actions : List (Action τ)) : Prop where
  /-- No two requests bear the same name. -/
  distinct : (actions.filterMap Action.asker?).Nodup
  /-- Nobody around has one of the names. -/
  new : ∀ client ∈ actions.filterMap Action.asker?, client ∉ clients

/-- Who asks first bears a new name. -/
theorem Fresh.head {clients : List τ} {action : Action τ} {rest : List (Action τ)}
    (h : Fresh clients (action :: rest)) :
    ∀ client, action.asker? = some client → client ∉ clients := by
  intro client he
  refine h.new client ?_
  rw [List.filterMap_cons_some he]
  exact List.mem_cons_self ..

/-- Those who ask later bear new names again. -/
theorem Fresh.tail {clients others : List τ} {action : Action τ} {rest : List (Action τ)}
    (h : Fresh clients (action :: rest))
    (ho : ∀ client ∈ others, client ∈ clients ∨ action.asker? = some client) :
    Fresh others rest where
  distinct := h.distinct.sublist ((List.sublist_cons_self action rest).filterMap _)
  new client hm hin := by
    have hsub := (List.sublist_cons_self action rest).filterMap Action.asker?
    rcases ho client hin with hold | he
    · exact h.new client (hsub.subset hm) hold
    · have hd := h.distinct
      rw [List.filterMap_cons_some he] at hd
      exact (List.nodup_cons.mp hd).1 hm

/-- Only the events among some actions bring clients that ask. -/
theorem Action.filterMap_asker? (actions : List (Action τ)) :
    actions.filterMap Action.asker? = (actions.filterMap Action.event?).filterMap Event.asker? := by
  rw [List.filterMap_filterMap]
  refine List.filterMap_congr fun action _ => ?_
  cases action with
  | event event => rfl
  | look client => rfl

/-- Who asks does not depend on when requests are looked at. -/
theorem Fresh.congr {clients : List τ} {actions others : List (Action τ)}
    (h : Fresh clients actions)
    (he : others.filterMap Action.event? = actions.filterMap Action.event?) :
    Fresh clients others := by
  have hsame : others.filterMap Action.asker? = actions.filterMap Action.asker? := by
    rw [Action.filterMap_asker?, Action.filterMap_asker?, he]
  exact ⟨hsame ▸ h.distinct, hsame ▸ h.new⟩

/-! ## Looking late -/

namespace Reference

variable [DecidableEq τ]

/-- The machine after some events. -/
def after (r : Reference τ) (events : List (Event τ)) : Reference τ :=
  events.foldl (fun r event => (r.handle event).machine) r

/-- The machine without the request of a client. -/
def without (client : τ) (r : Reference τ) : Reference τ :=
  { r with queue := r.queue.filter fun ask => ask.client ≠ client }

/-- Nobody comes when the request of a client is left out. -/
theorem sublist_clients_without (client : τ) (r : Reference τ) :
    (r.without client).clients.Sublist r.clients :=
  sublist_clients_filter_queue r _

/-- Without a client who has just joined the queue, the machine is as it was. -/
theorem without_joined {r : Reference τ} {client : τ} (h : client ∉ r.queue.map (·.client))
    (access : Access) :
    without client { r with queue := r.queue ++ [⟨client, access⟩] } = r := by
  have hrest : r.queue.filter (fun ask => decide (ask.client ≠ client)) = r.queue :=
    filter_of_not_mem Ask.client h
  simp only [without, List.filter_append, hrest]
  simp

/-- Others join the queue with the request or without it. -/
theorem without_join {r : Reference τ} {client : τ} {ask : Ask τ} (h : ask.client ≠ client) :
    without client { r with queue := r.queue ++ [ask] } =
      { r.without client with queue := (r.without client).queue ++ [ask] } := by
  simp [without, List.filter_append, h]

/-- Whoever is the first of the queue, and another client, is so with its request or
without it. -/
theorem without_cons {closed : Bool} {holding : List (Hold τ)} {client : τ} {ask : Ask τ}
    {rest : List (Ask τ)} (h : ask.client ≠ client) :
    without client ⟨closed, holding, ask :: rest⟩ =
      ⟨closed, holding, ask :: rest.filter fun ask => ask.client ≠ client⟩ := by
  simp [without, h]

end Reference

namespace Guard

variable {g v : Guard τ} {gate next : Gate τ}

/-- A client is inside the guard exactly if it is inside the machine. -/
theorem Stands.mem_holding_iff (h : g.Stands gate) {client : τ} :
    client ∈ g.holding.map (·.client) ↔ client ∈ gate.machine.holding.map (·.client) := by
  rw [h.eq_guard, Gate.holding_guard]

/-- A client waits at the guard exactly if it waits at the machine. -/
theorem Stands.mem_waiting_iff (h : g.Stands gate) {client : τ} :
    client ∈ g.waiting.map (·.client) ↔ client ∈ gate.machine.queue.map (·.client) := by
  rw [h.eq_guard, Gate.client_waiting_guard]

/-- Nobody waits who is inside. -/
theorem Stands.not_mem_queue (h : g.Stands gate) {client : τ}
    (hm : client ∈ gate.machine.holding.map (·.client)) :
    client ∉ gate.machine.queue.map (·.client) :=
  fun hq => (List.nodup_append.mp h.distinct).2.2 client hq client hm rfl

variable [DecidableEq τ]

/-- The machine that lets in whom it can goes on by the event that an action is, or stays
as it is when a request is looked at. -/
theorem Stands.settle_act (h : g.Stands gate) {action : Action τ} (ha : g.Allows action) :
    (gate.act action).machine.settle.machine =
      gate.machine.settle.machine.after action.event?.toList := by
  have hsettle := gate.machine.admits_settle
  have hopen : gate.machine.settle.machine.closed = false := gate.closed_machine
  cases action with
  | look client => exact (h.sound.admits_look client).settle_eq.symm
  | event event =>
    cases event with
    | request client access =>
      have hjoins := (hsettle.append ⟨client, access⟩).settle_eq
      rw [Gate.act, ← (h.sound.admits_request ⟨client, access⟩).settle_eq, hjoins]
      simp only [Action.event?, Option.toList, Reference.after, List.foldl_cons,
        List.foldl_nil, Reference.handle, hopen, Bool.false_eq_true, if_false]
    | release client =>
      have hleaves := h.not_mem_queue (h.mem_holding_iff.mp ha)
      rw [Gate.act, gate.machine_release client, (hsettle.release hleaves).settle_eq]
      rfl
    | cancel client => exact ha.elim
    | close => exact ha.elim

/-- However late the requests are looked at, a guard comes to stand as the machine makes
it that lets in whom it can after each event. -/
theorem Stands.settle_run (h : g.Stands gate) {actions : List (Action τ)}
    (hs : g.Proceeds actions) (hf : Fresh gate.machine.clients actions) :
    (g.run actions).settle.guard =
      (gate.machine.settle.machine.after (actions.filterMap Action.event?)).guard := by
  induction actions generalizing g gate with
  | nil => exact h.settle
  | cons action rest ih =>
    obtain ⟨ha, hrest⟩ := hs
    have hnext := h.act ha.ne_close hf.head
    have hlater := hf.tail fun client hm => h.mem_clients_act hm
    have hi := ih hnext hrest hlater
    have hevents : (action :: rest).filterMap Action.event? =
        action.event?.toList ++ rest.filterMap Action.event? := by
      cases he : action.event? with
      | none => rw [List.filterMap_cons_none he]; rfl
      | some event => rw [List.filterMap_cons_some he]; rfl
    rw [h.settle_act ha] at hi
    rw [hevents, Reference.after, List.foldl_append]
    exact hi

/-! ## With the request and without it -/

/-- As long as the request waits, the guard without it has let in those whom the guard
with it has, and is not behind it after any action. -/
theorem Stands.admits_act (h : g.Stands gate) (hv : next.Sound) {client : τ}
    (hl : (gate.machine.without client).Admits next.machine) {action : Action τ}
    (ha : g.Allows action) (hc : client ∈ gate.machine.queue.map (·.client))
    (hk : client ∈ (gate.act action).machine.queue.map (·.client))
    (hf : ∀ other, action.asker? = some other → other ∉ gate.machine.clients) :
    ((gate.act action).machine.without client).Admits (next.act action).machine := by
  cases action with
  | look other =>
    rcases h.sound.machine_look other with hs | ⟨ask, rest, hm, hcomp, rfl, hin⟩
    · simp only [Gate.act, hs]
      exact hl.trans (hv.admits_look other)
    · -- The one who is let in is not the one who waits on, so the other guard lets it in too.
      have hbehind : client ∈ rest.map (·.client) := by
        simpa only [Gate.act, hin] using hk
      have hne : ask.client ≠ client := by
        have hqueue := (List.nodup_append.mp h.distinct).1
        rw [hm, List.map_cons] at hqueue
        exact fun he => (List.nodup_cons.mp hqueue).1 (he ▸ hbehind)
      rw [hm, Reference.without_cons hne] at hl
      simp only [Gate.act, hin]
      generalize hr : next.machine = r at hl
      cases hl with
      | refl =>
        rw [hv.machine_look_first hr hcomp]
        exact .refl _
      | step _ hfurther =>
        subst hr
        exact hfurther.trans (hv.admits_look _)
  | event event =>
    cases event with
    | request other access =>
      have hne : other ≠ client :=
        fun he => hf other rfl (he ▸ List.mem_append_left _ hc)
      rcases h.sound.machine_request ⟨other, access⟩ with hs | ⟨hq, _, _⟩
      · simp only [Gate.act, hs]
        rw [Reference.without_join hne]
        exact (hl.append _).trans (hv.admits_request _)
      · rw [hq] at hc
        cases hc
    | release other =>
      have hleaves : other ∉ (gate.machine.without client).queue.map (·.client) := fun hm =>
        h.not_mem_queue (h.mem_holding_iff.mp ha) ((List.filter_sublist.map _).subset hm)
      have hboth := hl.release hleaves
      simp only [Gate.act, gate.machine_release other, next.machine_release other]
      exact hboth
    | cancel other => exact ha.elim
    | close => exact ha.elim

/-- What may be done with the request may be done without it. -/
theorem Stands.allows (h : g.Stands gate) (hv : v.Stands next) {client : τ}
    (hl : (gate.machine.without client).Admits next.machine) {action : Action τ}
    (ha : g.Allows action) : v.Allows action := by
  cases action with
  | look other => trivial
  | event event =>
    cases event with
    | request other access => trivial
    | release other =>
      have hin := h.mem_holding_iff.mp ha
      exact hv.mem_holding_iff.mpr ((hl.holding_prefix.map _).subset hin)
    | cancel other => exact ha.elim
    | close => exact ha.elim

/-- The same can be done without the request as with it, and in the end, when it has been
withdrawn and the requests have been looked at, the guards are the same. -/
theorem Stands.settle_cancel_run (h : g.Stands gate) (hv : v.Stands next) {client : τ}
    (hl : (gate.machine.without client).Admits next.machine) {actions : List (Action τ)}
    (hs : g.Proceeds actions) (hk : g.Keeps client actions)
    (hf : Fresh gate.machine.clients actions) :
    v.Proceeds actions ∧
      ((g.run actions).cancel client).settle.guard = (v.run actions).settle.guard := by
  induction actions generalizing g v gate next with
  | nil =>
    refine ⟨trivial, ?_⟩
    have hcancel := Gate.machine_cancel h.distinct client
    rw [run, run, List.foldl_nil, List.foldl_nil, (h.cancel client).settle, hv.settle, hcancel]
    exact congrArg Reference.guard hl.settle_eq
  | cons action rest ih =>
    obtain ⟨ha, hserves⟩ := hs
    have hnext := h.act ha.ne_close hf.head
    have hsame := (Reference.sublist_clients_without client gate.machine).subset
    have hallows := h.allows hv hl ha
    have hvnext := hv.act hallows.ne_close fun other he hm =>
      hf.head other he (hsame (hl.perm_clients.subset hm))
    have hnow := h.mem_waiting_iff.mp hk.waits
    have hthen := hnext.mem_waiting_iff.mp hk.2.waits
    have hlater := h.admits_act hv.sound hl ha hnow hthen hf.head
    obtain ⟨hvserves, heq⟩ := ih hnext hvnext hlater hserves hk.2
      (hf.tail fun other hm => h.mem_clients_act hm)
    exact ⟨⟨hallows, hvserves⟩, heq⟩

/-- Let any actions have led to a guard, and let a request come to it that has to wait and
does so while others ask and those who are inside leave. When it is withdrawn and the
requests have been looked at, the guard is the one to which the others lead without it:
the same clients are inside, the same requests wait in the same order, as many readers are
counted and the same permits are free. What the others do can be done without it, and
nothing depends on when requests are looked at in the meantime. Each request bears a name
of its own. -/
theorem settle_cancel_of_waiting {front rest : List (Action τ)} {client : τ} {access : Access}
    {stage : Stage}
    (hd : ((front ++ .event (.request client access) :: rest).filterMap Action.asker?).Nodup)
    (hw : ((new.run front).request client access).2 = .waiting stage)
    (hs : ((new.run front).request client access).1.Proceeds rest)
    (hk : ((new.run front).request client access).1.Keeps client rest) :
    (new.run front).Proceeds rest ∧
      ∀ other : List (Action τ),
        other.filterMap Action.event? = rest.filterMap Action.event? →
        (new.run front).Proceeds other →
        ((((new.run front).request client access).1.run rest).cancel client).settle.guard =
          ((new.run front).run other).settle.guard := by
  have hnames : (Action.event (.request client access) :: rest).filterMap Action.asker? =
      client :: rest.filterMap Action.asker? := rfl
  rw [List.filterMap_append, hnames] at hd
  obtain ⟨hfront, hback, hapart⟩ := List.nodup_append.mp hd
  obtain ⟨hclient, hrest⟩ := List.nodup_cons.mp hback
  rcases exists_stands hfront with hc | ⟨gate, hg, hin⟩
  · rw [request_of_closed hc] at hw
    cases hw
  have hnew : client ∉ gate.machine.clients := fun hm =>
    hapart client (hin client hm) client (List.mem_cons_self ..) rfl
  have hasked := hg.request hnew access
  -- The request waits, so it has joined the queue and nobody was let in by it.
  have hjoined : (gate.request ⟨client, access⟩).machine =
      { gate.machine with queue := gate.machine.queue ++ [⟨client, access⟩] } := by
    rcases hg.sound.machine_request ⟨client, access⟩ with hs | ⟨_, _, hs⟩
    · exact hs
    · have hwaits := hasked.mem_waiting_iff.mp hk.waits
      rw [hs] at hwaits
      cases hwaits
  have hbefore : (gate.request ⟨client, access⟩).machine.without client = gate.machine := by
    rw [hjoined]
    exact Reference.without_joined (fun hm => hnew (List.mem_append_left _ hm)) access
  have hfresh : Fresh gate.machine.clients rest :=
    ⟨hrest, fun other hm ho => hapart other (hin other ho) other (List.mem_cons_of_mem _ hm) rfl⟩
  have hfreshWith : Fresh (gate.request ⟨client, access⟩).machine.clients rest := by
    refine ⟨hrest, fun other hm ho => ?_⟩
    rcases List.mem_cons.mp ((perm_clients_request hg.sound _).subset ho) with rfl | ho
    · exact hclient hm
    · exact hfresh.new other hm ho
  -- Without the request the run begins at the guard in front of it.
  obtain ⟨hserves, heq⟩ :=
    hasked.settle_cancel_run hg (hbefore ▸ .refl _) hs hk hfreshWith
  refine ⟨hserves, fun other he ho => ?_⟩
  rw [heq, hg.settle_run hserves hfresh, hg.settle_run ho (hfresh.congr he), he]

/-- A writer withdraws for whom the last reader has just left, and two readers behind it
get in together, whether or not one of them would have been inside already. -/
theorem settle_cancel_of_assigned_writer :
    let front : List (Action Nat) := [.event (.request 1 .read)]
    let rest : List (Action Nat) :=
      [.event (.request 3 .read), .event (.request 4 .read), .look 3, .event (.release 1)]
    let other : List (Action Nat) :=
      [.event (.request 3 .read), .event (.request 4 .read), .event (.release 1), .look 4]
    (((((Guard.new.run front).request 2 .write).1.run rest).cancel 2).settle.guard =
        ((Guard.new.run front).run other).settle.guard) ∧
      ((Guard.new.run front).run other).settle.guard.holding = [⟨3, .read⟩, ⟨4, .read⟩] :=
  ⟨(settle_cancel_of_waiting (by decide) rfl (by decide) (by decide)).2 _ (by decide)
    (by decide), by decide⟩

end Guard

end EmbeddedSql.Lock
