import EmbeddedSql.Lock.Semaphore

/-!
# The guard of a table

A guard lets many readers or one writer at a time into a table, in the order in
which they asked. It is made of two semaphores with one permit each. Everyone
passes the entry first; a writer keeps its permit as long as it writes, so that
whoever comes later waits behind it, and a reader gives it back as soon as it
is in. The exclusion belongs to the writer inside, or to all readers inside
together: the first one takes it and the last one gives it back.
-/

namespace EmbeddedSql.Lock

/-- The kind of access that is asked for. -/
inductive Access where
  /-- Access shared with other readers. -/
  | read
  /-- Access shared with nobody. -/
  | write
  deriving DecidableEq, Repr

/-- The semaphore at which a request waits. -/
inductive Stage where
  /-- Nothing is held yet. -/
  | entry
  /-- The entry's permit is held. -/
  | exclusion
  deriving DecidableEq, Repr

/-- A request that waits. -/
structure Request (τ : Type) where
  /-- Who asks. -/
  client : τ
  /-- For what. -/
  access : Access
  /-- How far the request is. -/
  stage : Stage
  deriving DecidableEq, Repr

/-- Access that was granted. -/
structure Hold (τ : Type) where
  /-- Who has it. -/
  client : τ
  /-- The kind of access. -/
  access : Access
  deriving DecidableEq, Repr

/-- What a request has come to. -/
inductive Progress where
  /-- Access is granted. -/
  | granted
  /-- The guard is closed. -/
  | failed
  /-- The request waits. -/
  | waiting (stage : Stage)
  deriving DecidableEq, Repr

/-- A guard with those who wait at it and those who are inside. -/
structure Guard (τ : Type) where
  /-- The semaphore that everyone passes first. -/
  entry : Semaphore τ
  /-- The semaphore that keeps writers alone. -/
  exclusion : Semaphore τ
  /-- How many readers are inside. -/
  readers : Nat
  /-- The requests that wait, in the order of their arrival. -/
  waiting : List (Request τ)
  /-- Those who are inside, in the order of their admission. -/
  holding : List (Hold τ)
  deriving DecidableEq, Repr

namespace Guard

variable {τ : Type}

/-- A guard with nobody around. -/
def new : Guard τ :=
  ⟨.ofPermits 1, .ofPermits 1, 0, [], []⟩

/-- One reader more, who gives the entry back. -/
def countReader (g : Guard τ) : Guard τ :=
  { g with readers := g.readers + 1, entry := g.entry.release }

/-- Goes on with what the exclusion answers to a client that holds the entry. -/
def afterExclusion (g : Guard τ) (access : Access) : Answer → Guard τ × Progress
  | .granted =>
    match access with
    | .read => (g.countReader, .granted)
    | .write => (g, .granted)
  | .failed => ({ g with entry := g.entry.release }, .failed)
  | .waiting => (g, .waiting .exclusion)

/-- Goes on with what the entry answers to a client. A reader joins readers who
are inside; anyone else needs the exclusion. -/
def afterEntry (g : Guard τ) (client : τ) (access : Access) : Answer → Guard τ × Progress
  | .failed => (g, .failed)
  | .waiting => (g, .waiting .entry)
  | .granted =>
    if access = .read ∧ 0 < g.readers then (g.countReader, .granted)
    else
      let (exclusion, answer) := g.exclusion.request client
      afterExclusion { g with exclusion } access answer

/-- Asks for access. -/
def request (g : Guard τ) (client : τ) (access : Access) : Guard τ × Progress :=
  let (entry, answer) := g.entry.request client
  let (g, progress) := afterEntry { g with entry } client access answer
  match progress with
  | .granted => ({ g with holding := g.holding ++ [⟨client, access⟩] }, .granted)
  | .failed => (g, .failed)
  | .waiting stage =>
    ({ g with waiting := g.waiting ++ [⟨client, access, stage⟩] }, .waiting stage)

/-- Closes the guard: nobody is admitted any more, but those inside stay. -/
def close (g : Guard τ) : Guard τ :=
  { g with entry := g.entry.close, exclusion := g.exclusion.close }

/-- How many readers are inside. -/
def activeReaders (g : Guard τ) : Nat :=
  g.readers

variable [DecidableEq τ]

/-- The request of a client that waits. -/
def find? (g : Guard τ) (client : τ) : Option (Request τ) :=
  g.waiting.find? fun r => r.client = client

/-- The access of a client that is inside. -/
def held? (g : Guard τ) (client : τ) : Option Access :=
  (g.holding.find? fun h => h.client = client).map (·.access)

/-- The guard without the waiting request of a client. -/
def forget (g : Guard τ) (client : τ) : Guard τ :=
  { g with waiting := g.waiting.filter fun r => r.client ≠ client }

/-- Looks at the request of a client at the semaphore where it waits. -/
def advance (g : Guard τ) (r : Request τ) : Guard τ × Progress :=
  match r.stage with
  | .entry =>
    let (entry, answer) := g.entry.poll r.client
    afterEntry { g with entry } r.client r.access answer
  | .exclusion =>
    let (exclusion, answer) := g.exclusion.poll r.client
    afterExclusion { g with exclusion } r.access answer

/-- Looks at the request of a client that waits, if there is one. -/
def poll (g : Guard τ) (client : τ) : Guard τ × Option Progress :=
  match g.find? client with
  | none => (g, none)
  | some r =>
    let (g, progress) := g.advance r
    match progress with
    | .granted =>
      let g := g.forget client
      ({ g with holding := g.holding ++ [⟨client, r.access⟩] }, some .granted)
    | .failed => (g.forget client, some .failed)
    | .waiting stage =>
      let moved := g.waiting.map fun other =>
        if other.client = client then { other with stage } else other
      ({ g with waiting := moved }, some (.waiting stage))

/-- One reader less; the last one gives the exclusion back. -/
def uncountReader (g : Guard τ) : Guard τ :=
  { g with
    readers := g.readers - 1
    exclusion := if g.readers = 1 then g.exclusion.release else g.exclusion }

/-- Gives access back; nothing happens if the client is not inside. -/
def release (g : Guard τ) (client : τ) : Guard τ :=
  match g.held? client with
  | none => g
  | some access =>
    let g := { g with holding := g.holding.filter fun h => h.client ≠ client }
    match access with
    | .read => g.uncountReader
    | .write => { g with exclusion := g.exclusion.release, entry := g.entry.release }

/-- Withdraws a request; nothing happens if the client does not wait. A request
at the exclusion leaves it before it gives the entry back. -/
def cancel (g : Guard τ) (client : τ) : Guard τ :=
  match g.find? client with
  | none => g
  | some r =>
    let g := g.forget client
    match r.stage with
    | .entry => { g with entry := g.entry.cancel client }
    | .exclusion =>
      { g with exclusion := g.exclusion.cancel client, entry := g.entry.release }

/-- What looking at requests has brought: the guard, and whose requests were
granted and failed, in order. -/
structure Outcome (τ : Type) where
  /-- The guard afterwards. -/
  guard : Guard τ
  /-- The clients who were admitted. -/
  granted : List τ
  /-- The clients whose requests failed. -/
  failed : List τ
  deriving DecidableEq, Repr

/-- Looks at the request of one client and notes what came of it. -/
def look (outcome : Outcome τ) (client : τ) : Outcome τ :=
  match outcome.guard.poll client with
  | (g, some .granted) => ⟨g, outcome.granted ++ [client], outcome.failed⟩
  | (g, some .failed) => ⟨g, outcome.granted, outcome.failed ++ [client]⟩
  | (g, _) => ⟨g, outcome.granted, outcome.failed⟩

/-- Looks at all waiting requests once, in the order of their arrival. -/
def lookAll (outcome : Outcome τ) : Outcome τ :=
  (outcome.guard.waiting.map (·.client)).foldl look outcome

/-- Looks at all waiting requests so many times over. -/
def lookRounds : Nat → Outcome τ → Outcome τ
  | 0, outcome => outcome
  | rounds + 1, outcome => lookRounds rounds (lookAll outcome)

/-- Looks at the waiting requests until nothing changes. A request moves at most
twice, so there are no more than twice as many rounds that change something as
there are requests. -/
def settle (g : Guard τ) : Outcome τ :=
  lookRounds (2 * g.waiting.length) ⟨g, [], []⟩

end Guard

/-- Something that happens at a guard from outside. -/
inductive Event (τ : Type) where
  /-- A client asks for access. -/
  | request (client : τ) (access : Access)
  /-- A client gives its access back. -/
  | release (client : τ)
  /-- A client withdraws its request. -/
  | cancel (client : τ)
  /-- The guard is closed. -/
  | close
  deriving DecidableEq, Repr

namespace Guard

variable {τ : Type} [DecidableEq τ]

/-- What comes of a request at once, noted like what comes of looking at it. -/
def noteRequest (g : Guard τ) (client : τ) (access : Access) : Outcome τ :=
  match g.request client access with
  | (g, .granted) => ⟨g, [client], []⟩
  | (g, .failed) => ⟨g, [], [client]⟩
  | (g, .waiting _) => ⟨g, [], []⟩

/-- Lets an event happen and then looks at the waiting requests until nothing
changes. -/
def handle (g : Guard τ) (event : Event τ) : Outcome τ :=
  let first : Outcome τ :=
    match event with
    | .request client access => g.noteRequest client access
    | .release client => ⟨g.release client, [], []⟩
    | .cancel client => ⟨g.cancel client, [], []⟩
    | .close => ⟨g.close, [], []⟩
  let later := first.guard.settle
  ⟨later.guard, first.granted ++ later.granted, first.failed ++ later.failed⟩

end Guard

end EmbeddedSql.Lock
