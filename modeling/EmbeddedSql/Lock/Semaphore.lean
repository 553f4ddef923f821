/-!
# Fair semaphores

A semaphore hands out permits in the order in which they were asked for. A
permit that is given back goes to the first in the queue at once, also if that
one does not notice before it looks again. A semaphore that is closed gives no
permit any more, not even one that was assigned but not yet picked up.
-/

namespace EmbeddedSql.Lock

/-- What a request for a permit comes to when it is looked at. -/
inductive Answer where
  /-- The permit is picked up. -/
  | granted
  /-- The semaphore is closed. -/
  | failed
  /-- The permit is not there yet. -/
  | waiting
  deriving DecidableEq, Repr

/-- A semaphore with the clients that wait for its permits. -/
structure Semaphore (τ : Type) where
  /-- The permits that nobody has. -/
  permits : Nat
  /-- The clients without a permit, first come first. -/
  queue : List τ
  /-- The clients with a permit that they have not picked up. -/
  assigned : List τ
  /-- Whether the semaphore is closed. -/
  closed : Bool
  deriving DecidableEq, Repr

namespace Semaphore

variable {τ : Type}

/-- A semaphore with so many free permits. -/
def ofPermits (permits : Nat) : Semaphore τ :=
  ⟨permits, [], [], false⟩

/-- Asks for a permit; a client that does not get it at once joins the queue. -/
def request (s : Semaphore τ) (client : τ) : Semaphore τ × Answer :=
  if s.closed then (s, .failed)
  else
    match s.permits with
    | n + 1 => (⟨n, s.queue, s.assigned, s.closed⟩, .granted)
    | 0 => (⟨0, s.queue ++ [client], s.assigned, s.closed⟩, .waiting)

/-- Gives a permit back: to the first in the queue, or to nobody. -/
def release (s : Semaphore τ) : Semaphore τ :=
  match s.queue with
  | client :: rest => ⟨s.permits, rest, s.assigned ++ [client], s.closed⟩
  | [] => ⟨s.permits + 1, [], s.assigned, s.closed⟩

/-- Closes the semaphore and empties its queue. -/
def close (s : Semaphore τ) : Semaphore τ :=
  ⟨s.permits, [], s.assigned, true⟩

variable [DecidableEq τ]

/-- Withdraws a request. A permit that was assigned to it goes back. -/
def cancel (s : Semaphore τ) (client : τ) : Semaphore τ :=
  if client ∈ s.assigned then
    release ⟨s.permits, s.queue, s.assigned.erase client, s.closed⟩
  else ⟨s.permits, s.queue.erase client, s.assigned, s.closed⟩

/-- Looks at a request that was left waiting. -/
def poll (s : Semaphore τ) (client : τ) : Semaphore τ × Answer :=
  if s.closed then (s.cancel client, .failed)
  else if client ∈ s.assigned then
    (⟨s.permits, s.queue, s.assigned.erase client, s.closed⟩, .granted)
  else (s, .waiting)

end Semaphore

end EmbeddedSql.Lock
