import EmbeddedSql.Proofs.Lock.Settling

/-!
# The ways in which an open guard stands

A request need not be looked at as soon as it can move: a permit may be assigned to a
client that has not noticed yet. As long as it is open, a guard then stands in one of
four ways, and whatever is done at it, a look at a single request among it, leads from
one of them to another. Looking late changes nothing: those who have not been let in yet
are those whom the machine with one queue would let in next.
-/

namespace EmbeddedSql.Lock

variable {τ : Type}

/-! ## What is done at a guard -/

/-- Something that is done at a guard. -/
inductive Action (τ : Type) where
  /-- Something happens from outside. -/
  | event (event : Event τ)
  /-- The request of a client is looked at. -/
  | look (client : τ)
  deriving DecidableEq, Repr

/-- The client of a request that is made. -/
def Action.asker? : Action τ → Option τ
  | .event e => e.asker?
  | .look _ => none

/-- What happens from outside by an action. -/
def Action.event? : Action τ → Option (Event τ)
  | .event e => some e
  | .look _ => none

/-! ## Letting in those in front -/

namespace Reference

/-- Some of those in front of the queue, one after another, are let in. -/
inductive Admits : Reference τ → Reference τ → Prop where
  | refl (r : Reference τ) : Admits r r
  | step {closed : Bool} {holding : List (Hold τ)} {ask : Ask τ} {rest : List (Ask τ)}
    {r : Reference τ} (compatible : ask.access.compatible holding = true)
    (further : Admits ⟨closed, holding ++ [ask.hold], rest⟩ r) :
    Admits ⟨closed, holding, ask :: rest⟩ r

variable {r s t : Reference τ}

/-- Letting some in and then some more lets them all in, one after another. -/
theorem Admits.trans (h : Admits r s) (k : Admits s t) : Admits r t := by
  induction h with
  | refl => exact k
  | step hc _ ih => exact .step hc (ih k)

/-- Whoever is let in early is let in anyway. -/
theorem Admits.settle_eq (h : Admits r s) : r.settle.machine = s.settle.machine := by
  induction h with
  | refl => rfl
  | step hc _ ih => rw [settle_cons_of_compatible hc, ← ih]

/-- Letting in those in front moves clients from the queue inside, and nobody comes or goes. -/
theorem Admits.perm_clients (h : Admits r s) : s.clients.Perm r.clients := by
  induction h with
  | refl => exact .refl _
  | step _ _ ih => exact ih.trans (perm_admit_clients _ _ _ _)

/-- All who can be let in are let in one after another. -/
theorem admits_settle (r : Reference τ) : r.Admits r.settle.machine := by
  obtain ⟨closed, holding, queue⟩ := r
  induction queue generalizing holding with
  | nil =>
    rw [settle_nil]
    exact .refl _
  | cons ask rest ih =>
    cases hc : ask.access.compatible holding with
    | true =>
      rw [settle_cons_of_compatible hc]
      exact .step hc (ih (holding ++ [ask.hold]))
    | false =>
      rw [settle_cons_of_not_compatible hc]
      exact .refl _

/-- Those who are inside stay when others are let in. -/
theorem Admits.holding_prefix (h : r.Admits s) : r.holding <+: s.holding := by
  induction h with
  | refl => exact List.prefix_rfl
  | step _ _ ih => exact (List.prefix_append _ _).trans ih

/-- It makes no difference for them that somebody joins the end of the queue. -/
theorem Admits.append (h : Admits r s) (ask : Ask τ) :
    Admits { r with queue := r.queue ++ [ask] } { s with queue := s.queue ++ [ask] } := by
  induction h with
  | refl => exact .refl _
  | step hc _ ih => exact .step hc ih

/-- Access that goes together with those inside goes together with some of them. -/
theorem compatible_filter {access : Access} {holding : List (Hold τ)}
    (h : access.compatible holding = true) (p : Hold τ → Bool) :
    access.compatible (holding.filter p) = true := by
  cases access with
  | read =>
    have hall := List.all_eq_true.mp h
    exact List.all_eq_true.mpr fun hold hm => hall hold (List.mem_of_mem_filter hm)
  | write =>
    obtain rfl := List.isEmpty_iff.mp h
    rfl

/-- Nor that somebody else who is inside leaves. -/
theorem Admits.release [DecidableEq τ] (h : Admits r s) {client : τ}
    (hn : client ∉ r.queue.map (·.client)) :
    Admits { r with holding := r.holding.filter fun hold => hold.client ≠ client }
      { s with holding := s.holding.filter fun hold => hold.client ≠ client } := by
  induction h with
  | refl => exact .refl _
  | @step closed holding ask rest r hc _ ih =>
    rw [List.map_cons, List.mem_cons, not_or] at hn
    have hkeep : (holding ++ [ask.hold]).filter (fun hold => decide (hold.client ≠ client)) =
        holding.filter (fun hold => decide (hold.client ≠ client)) ++ [ask.hold] := by
      have hother : ask.client ≠ client := Ne.symm hn.1
      simp [List.filter_append, Ask.hold, hother]
    have hi := ih hn.2
    rw [hkeep] at hi
    exact .step (compatible_filter hc _) hi

end Reference

/-! ## The ways in which an open guard can stand -/

/-- An open guard, told by who is inside and who waits. -/
inductive Gate (τ : Type) where
  /-- A writer is inside and keeps the entry. -/
  | writing (writer : τ) (queue : List (Ask τ))
  /-- Readers or nobody are inside, and the entry is with the first who waits, or free. -/
  | entering (holding : List (Hold τ)) (queue : List (Ask τ))
  /-- Readers are inside, and a writer who keeps the entry waits for them to leave. -/
  | blocked (holding : List (Hold τ)) (writer : τ) (queue : List (Ask τ))
  /-- Nobody is inside, and a writer who keeps the entry may go in. -/
  | cleared (writer : τ) (queue : List (Ask τ))

namespace Gate

/-- The guard itself. -/
def guard : Gate τ → Guard τ
  | writing writer queue => Reference.guard ⟨false, [⟨writer, .write⟩], queue⟩
  | entering holding queue => Guard.opened holding queue
  | blocked holding writer queue => Reference.guard ⟨false, holding, ⟨writer, .write⟩ :: queue⟩
  | cleared writer queue =>
    ⟨⟨0, queue.map (·.client), [], false⟩, ⟨0, [], [writer], false⟩, 0,
      ⟨writer, .write, .exclusion⟩ :: queue.map (·.waitingAt .entry), []⟩

/-- Who is inside, and who waits, in the order of arrival. -/
def machine : Gate τ → Reference τ
  | writing writer queue => ⟨false, [⟨writer, .write⟩], queue⟩
  | entering holding queue => ⟨false, holding, queue⟩
  | blocked holding writer queue => ⟨false, holding, ⟨writer, .write⟩ :: queue⟩
  | cleared writer queue => ⟨false, [], ⟨writer, .write⟩ :: queue⟩

/-- The machine of an open guard is open. -/
theorem closed_machine (gate : Gate τ) : gate.machine.closed = false := by
  cases gate with
  | _ => rfl

/-- The guard and its machine have the same holds inside. -/
theorem holding_guard (gate : Gate τ) : gate.guard.holding = gate.machine.holding := by
  cases gate with
  | writing writer queue => exact Reference.holding_guard _
  | entering holding queue => rfl
  | blocked holding writer queue => exact Reference.holding_guard _
  | cleared writer queue => rfl

/-- The same clients wait at the guard and at its machine, in the same order. -/
theorem client_waiting_guard (gate : Gate τ) :
    gate.guard.waiting.map (·.client) = gate.machine.queue.map (·.client) := by
  cases gate with
  | writing writer queue => exact Reference.client_waiting_guard _
  | entering holding queue => exact List.map_map
  | blocked holding writer queue => exact Reference.client_waiting_guard _
  | cleared writer queue => exact congrArg (writer :: ·) List.map_map

/-- Next to a writer nobody is inside. -/
def Sound : Gate τ → Prop
  | entering holding _ => Reads holding
  | blocked holding _ _ => Reads holding ∧ holding ≠ []
  | _ => True

/-- The first who waits passes the entry: a reader gets in and hands the entry on, and a
writer keeps it and gets in if nobody is inside. -/
def pass (holding : List (Hold τ)) (ask : Ask τ) (rest : List (Ask τ)) : Gate τ :=
  match ask.access with
  | .read => entering (holding ++ [ask.hold]) rest
  | .write => if holding.isEmpty then writing ask.client rest else blocked holding ask.client rest

/-- A request is made. -/
def request (ask : Ask τ) : Gate τ → Gate τ
  | writing writer queue => writing writer (queue ++ [ask])
  | entering holding [] => pass holding ask []
  | entering holding (first :: rest) => entering holding (first :: rest ++ [ask])
  | blocked holding writer queue => blocked holding writer (queue ++ [ask])
  | cleared writer queue => cleared writer (queue ++ [ask])

variable {gate : Gate τ}

/-- Whoever passes the entry next to readers comes next to nobody as a writer. -/
theorem sound_pass {holding : List (Hold τ)} (hr : Reads holding) (ask : Ask τ)
    (rest : List (Ask τ)) : (pass holding ask rest).Sound := by
  obtain ⟨client, access⟩ := ask
  cases access with
  | read => exact @reads_append _ _ hr ⟨client, .read⟩ rfl
  | write =>
    cases holding with
    | nil => trivial
    | cons hold others => exact ⟨hr, List.cons_ne_nil hold others⟩

/-- Whoever passes the entry is let in if it can be. -/
theorem machine_pass {holding : List (Hold τ)} (hr : Reads holding) (ask : Ask τ)
    (rest : List (Ask τ)) :
    (pass holding ask rest).machine =
      if ask.access.compatible holding then ⟨false, holding ++ [ask.hold], rest⟩
      else ⟨false, holding, ask :: rest⟩ := by
  obtain ⟨client, access⟩ := ask
  cases access with
  | read => rw [if_pos (compatible_read hr)]; rfl
  | write =>
    cases holding with
    | nil => rfl
    | cons hold others => rfl

/-- A request puts nobody next to a writer. -/
theorem Sound.request (h : gate.Sound) (ask : Ask τ) : (gate.request ask).Sound := by
  cases gate with
  | writing writer queue => trivial
  | entering holding queue =>
    cases queue with
    | nil => exact sound_pass h ask []
    | cons first rest => exact h
  | blocked holding writer queue => exact h
  | cleared writer queue => trivial

/-- A request joins the end of the queue, or is let in at once if nobody waits. -/
theorem Sound.machine_request (h : gate.Sound) (ask : Ask τ) :
    (gate.request ask).machine = { gate.machine with queue := gate.machine.queue ++ [ask] } ∨
      gate.machine.queue = [] ∧ ask.access.compatible gate.machine.holding = true ∧
        (gate.request ask).machine = ⟨false, gate.machine.holding ++ [ask.hold], []⟩ := by
  cases gate with
  | writing writer queue => exact .inl rfl
  | entering holding queue =>
    cases queue with
    | nil =>
      rw [Gate.request, machine_pass h]
      split
      next hc => exact .inr ⟨rfl, hc, rfl⟩
      next => exact .inl rfl
    | cons first rest => exact .inl rfl
  | blocked holding writer queue => exact .inl rfl
  | cleared writer queue => exact .inl rfl

/-- A request joins the queue of the machine, and then some of those in front are let in. -/
theorem Sound.admits_request (h : gate.Sound) (ask : Ask τ) :
    Reference.Admits { gate.machine with queue := gate.machine.queue ++ [ask] }
      (gate.request ask).machine := by
  rcases h.machine_request ask with hs | ⟨hq, hc, hin⟩
  · rw [hs]
    exact .refl _
  · have hjoined : { gate.machine with queue := gate.machine.queue ++ [ask] } =
        ⟨false, gate.machine.holding, [ask]⟩ := by simp only [hq, closed_machine, List.nil_append]
    rw [hjoined, hin]
    exact .step hc (.refl _)

variable [DecidableEq τ]

/-- Somebody inside leaves. -/
def release (client : τ) : Gate τ → Gate τ
  | writing writer queue => if writer = client then entering [] queue else writing writer queue
  | entering holding queue => entering (holding.filter fun hold => hold.client ≠ client) queue
  | blocked holding writer queue =>
    if (holding.filter fun hold => hold.client ≠ client).isEmpty then cleared writer queue
    else blocked (holding.filter fun hold => hold.client ≠ client) writer queue
  | cleared writer queue => cleared writer queue

/-- A request is withdrawn. -/
def cancel (client : τ) : Gate τ → Gate τ
  | writing writer queue => writing writer (queue.filter fun ask => ask.client ≠ client)
  | entering holding queue => entering holding (queue.filter fun ask => ask.client ≠ client)
  | blocked holding writer queue =>
    if writer = client then entering holding queue
    else blocked holding writer (queue.filter fun ask => ask.client ≠ client)
  | cleared writer queue =>
    if writer = client then entering [] queue
    else cleared writer (queue.filter fun ask => ask.client ≠ client)

/-- A request is looked at. -/
def look (client : τ) : Gate τ → Gate τ
  | writing writer queue => writing writer queue
  | entering holding [] => entering holding []
  | entering holding (first :: rest) =>
    if first.client = client then pass holding first rest else entering holding (first :: rest)
  | blocked holding writer queue => blocked holding writer queue
  | cleared writer queue => if writer = client then writing writer queue else cleared writer queue

/-- Something is done that does not close the guard; for closing there is no way to stand. -/
def act : Action τ → Gate τ → Gate τ
  | .event (.request client access) => request ⟨client, access⟩
  | .event (.release client) => release client
  | .event (.cancel client) => cancel client
  | .event .close => id
  | .look client => look client

/-! ## What is done leads from one way to another -/

/-- When somebody leaves, nobody is next to a writer. -/
theorem Sound.release (h : gate.Sound) (client : τ) : (gate.release client).Sound := by
  cases gate with
  | writing writer queue =>
    rw [Gate.release]
    split
    · exact fun hold hm => absurd hm List.not_mem_nil
    · trivial
  | entering holding queue => exact reads_filter h _
  | blocked holding writer queue =>
    rw [Gate.release]
    split
    · trivial
    next he => exact ⟨reads_filter h.1 _, fun hn => he (List.isEmpty_iff.mpr hn)⟩
  | cleared writer queue => trivial

/-- When a request is withdrawn, nobody is next to a writer. -/
theorem Sound.cancel (h : gate.Sound) (client : τ) : (gate.cancel client).Sound := by
  cases gate with
  | writing writer queue => trivial
  | entering holding queue => exact h
  | blocked holding writer queue =>
    rw [Gate.cancel]
    split
    · exact h.1
    · exact h
  | cleared writer queue =>
    rw [Gate.cancel]
    split
    · exact fun hold hm => absurd hm List.not_mem_nil
    · trivial

/-- When a request is looked at, nobody is next to a writer. -/
theorem Sound.look (h : gate.Sound) (client : τ) : (gate.look client).Sound := by
  cases gate with
  | writing writer queue => trivial
  | entering holding queue =>
    cases queue with
    | nil => exact h
    | cons first rest =>
      rw [Gate.look]
      split
      · exact sound_pass h first rest
      · exact h
  | blocked holding writer queue => exact h
  | cleared writer queue =>
    rw [Gate.look]
    split <;> trivial

/-- A look lets in nobody, or the one who is looked at if it is the first of the queue. -/
theorem Sound.machine_look (h : gate.Sound) (client : τ) :
    (gate.look client).machine = gate.machine ∨
      ∃ ask rest, gate.machine = ⟨false, gate.machine.holding, ask :: rest⟩ ∧
        ask.access.compatible gate.machine.holding = true ∧ ask.client = client ∧
        (gate.look client).machine = ⟨false, gate.machine.holding ++ [ask.hold], rest⟩ := by
  cases gate with
  | writing writer queue => exact .inl rfl
  | entering holding queue =>
    cases queue with
    | nil => exact .inl rfl
    | cons first rest =>
      rw [Gate.look]
      split
      next hc =>
        rw [machine_pass h]
        split
        next hp => exact .inr ⟨first, rest, rfl, hp, hc, rfl⟩
        next => exact .inl rfl
      next => exact .inl rfl
  | blocked holding writer queue => exact .inl rfl
  | cleared writer queue =>
    rw [Gate.look]
    split
    next hc => exact .inr ⟨⟨writer, .write⟩, queue, rfl, rfl, hc, rfl⟩
    next => exact .inl rfl

/-- A look at a request lets in at most those whom the machine would let in next. -/
theorem Sound.admits_look (h : gate.Sound) (client : τ) :
    gate.machine.Admits (gate.look client).machine := by
  rcases h.machine_look client with hs | ⟨ask, rest, hm, hc, _, hin⟩
  · rw [hs]
    exact .refl _
  · rw [hm, hin]
    exact .step hc (.refl _)

/-- The first of the queue gets in when it is looked at, if it can. -/
theorem Sound.machine_look_first (h : gate.Sound) {ask : Ask τ} {holding : List (Hold τ)}
    {rest : List (Ask τ)} (hm : gate.machine = ⟨false, holding, ask :: rest⟩)
    (hc : ask.access.compatible holding = true) :
    (gate.look ask.client).machine = ⟨false, holding ++ [ask.hold], rest⟩ := by
  cases gate with
  | writing writer queue =>
    cases hm
    rw [compatible_writer] at hc
    cases hc
  | entering inside queue =>
    cases hm
    rw [Gate.look, if_pos rfl, machine_pass h, if_pos hc]
  | blocked inside writer queue =>
    cases hm
    rw [compatible_write h.2] at hc
    cases hc
  | cleared writer queue =>
    cases hm
    rw [Gate.look, if_pos rfl]
    rfl

/-- Whoever leaves the guard leaves its machine, and nobody is let in by that. -/
theorem machine_release (gate : Gate τ) (client : τ) :
    (gate.release client).machine =
      { gate.machine with
        holding := gate.machine.holding.filter fun hold => hold.client ≠ client } := by
  cases gate with
  | writing writer queue =>
    rw [Gate.release]
    split
    next he => simp [machine, he]
    next he => simp [machine, he]
  | entering holding queue => rfl
  | blocked holding writer queue =>
    rw [Gate.release]
    split
    next he =>
      have hnil := List.isEmpty_iff.mp he
      simp only [machine, hnil]
    next => rfl
  | cleared writer queue => rfl

/-- A name in front of distinct ones does not stand for any of them. -/
theorem filter_client {client : τ} {access : Access} {queue : List (Ask τ)}
    (h : client ∉ queue.map (·.client)) :
    (⟨client, access⟩ :: queue).filter (fun ask => decide (ask.client ≠ client)) = queue := by
  rw [List.filter_cons_of_neg (by simp)]
  exact filter_of_not_mem Ask.client h

/-- A request that is withdrawn from the guard is withdrawn from its machine, and nobody is let
in by that. -/
theorem machine_cancel (hn : gate.machine.clients.Nodup) (client : τ) :
    (gate.cancel client).machine =
      { gate.machine with
        queue := gate.machine.queue.filter fun ask => ask.client ≠ client } := by
  have hqueue : (gate.machine.queue.map (·.client)).Nodup := (List.nodup_append.mp hn).1
  cases gate with
  | writing writer queue => rfl
  | entering holding queue => rfl
  | blocked holding writer queue =>
    rw [Gate.cancel]
    split
    next he =>
      subst he
      simp only [machine, filter_client (List.nodup_cons.mp hqueue).1]
    next he => simp [machine, he]
  | cleared writer queue =>
    rw [Gate.cancel]
    split
    next he =>
      subst he
      simp only [machine, filter_client (List.nodup_cons.mp hqueue).1]
    next he => simp [machine, he]

end Gate

end EmbeddedSql.Lock
