import EmbeddedSql.Session.Handle
import EmbeddedSql.Session.System

/-!
# Calls in time

Tasks begin at given times on one handle and make their calls one after
another. Computing takes no time; a read takes place at the end of a delay, and
a write at the beginning of one. At every instant the tasks go on one after
another, each until it has to wait, as long as any of them can; then the clock
moves to the next instant at which something is due. The deadline of a call runs
while it waits for its guard and at no other time.
-/

namespace EmbeddedSql.Session

/-- How long the store takes, in milliseconds. -/
structure Delays where
  /-- The time of a read, which takes place at its end. -/
  read : Nat
  /-- The time of a write, which takes place at its beginning. -/
  write : Nat
  deriving DecidableEq, Repr

/-- What a task asks for. -/
inductive Request where
  /-- The rows of the last statement of a template. -/
  | run (template : List Char) (parameters : List Value)
  /-- The rows of every statement of a script. -/
  | runAll (script : List Char)
  /-- The names of all tables. -/
  | tables

/-- A task. -/
structure Task where
  /-- When it begins. -/
  start : Nat
  /-- What it asks for. -/
  request : Request
  /-- When it is given up, if it has not ended before. -/
  abortAt : Option Nat

/-- How a task ends. -/
inductive Ending where
  /-- With the rows of its last statement. -/
  | rows (rows : List Row)
  /-- With the rows of each of its statements. -/
  | results (results : List (List Row))
  /-- With names of tables. -/
  | names (names : List String)
  /-- With an error. -/
  | failed (error : Error)
  /-- With the error of one of its statements, and the rows of those before. -/
  | batchFailed (error : BatchError)
  /-- It was given up. -/
  | aborted

/-- A task that has begun: its calls so far and those to come. -/
structure Course where
  /-- The calls that have not begun. -/
  pending : List Call
  /-- The rows of the calls that have returned. -/
  done : List (List Row)
  /-- The number of the call under way. -/
  current : Option Nat
  /-- When the read or the write under way ends. -/
  due : Option Nat
  /-- When the call under way has waited too long for its guard. -/
  deadline : Option Nat

/-- How far a task is. -/
inductive Status where
  /-- It has not begun. -/
  | waiting
  /-- It is under way. -/
  | running (course : Course)
  /-- It has ended at this time. -/
  | ended (time : Nat) (ending : Ending)

/-- A system with tasks and a clock. -/
structure Timeline where
  /-- The time of the store's operations. -/
  delays : Delays
  /-- The clock. -/
  now : Nat
  /-- The system. -/
  system : System
  /-- The tasks, each with how far it is. -/
  tasks : List (Task × Status)

namespace Timeline

/-- The course of a task that is about to make the given calls. -/
def courseOf (calls : List Call) : Course :=
  ⟨calls, [], none, none, none⟩

/-- How a task begins at a time: with its calls, or at its end if what it asks
for cannot be read. -/
def beginTask (now : Nat) : Request → Status
  | .run template parameters =>
    match Sql.bindTemplate template parameters >>= Sql.parseScript with
    | .ok statements => .running (courseOf (statements.map .execute))
    | .error e => .ended now (.failed e)
  | .runAll script =>
    match Sql.parseScript script with
    | .ok statements => .running (courseOf (statements.map .execute))
    | .error e => .ended now (.batchFailed ⟨[], e⟩)
  | .tables => .running (courseOf [.tableNames])

/-- How a task ends that has made all its calls. -/
def endingOf (request : Request) (done : List (List Row)) : Ending :=
  match request with
  | .run .. => .rows (done.getLastD [])
  | .runAll _ => .results done
  | .tables => .names []

/-- How a task ends one of whose calls has failed. -/
def failureOf (request : Request) (done : List (List Row)) (error : Error) : Ending :=
  match request with
  | .runAll _ => .batchFailed ⟨done, error⟩
  | _ => .failed error

/-- How a task goes on when the call under way has returned. -/
def afterCall (now : Nat) (request : Request) (course : Course) :
    Except Error Reply → Status
  | .error e => .ended now (failureOf request course.done e)
  | .ok (.rows rows) =>
    .running { courseOf course.pending with done := course.done ++ [rows] }
  | .ok (.names names) => .ended now (.names names)
  | .ok (.columns _) => .running { courseOf course.pending with done := course.done }

/-- Whether a time has come. -/
def hasCome (now : Nat) : Option Nat → Bool
  | none => false
  | some time => time ≤ now

/-- What a move makes of the system; a move that is not possible changes
nothing. -/
def make (s : System) (move : Move) : System :=
  (s.move move).getD s

/-- Whether a call waits for a guard. -/
def isQueued (s : System) (call : Nat) : Bool :=
  match s.calls[call]? with
  | some ⟨_, .queued _⟩ => true
  | _ => false

/-- Whether a call waits for the commit lock. -/
def isCommitting (s : System) (call : Nat) : Bool :=
  match s.calls[call]? with
  | some ⟨_, .committing _⟩ => true
  | _ => false

/-- Lets the call under way go on at this instant, if it can: the system and
the task's status after that, or none if nothing is to be done. -/
def stepCall (delays : Delays) (now : Nat) (s : System) (request : Request) (course : Course)
    (call : Nat) : Option (System × Status) := do
  let ⟨_, stage⟩ ← s.calls[call]?
  let readStep : Option (System × Status) :=
    match course.due with
    | none => some (s, .running { course with due := some (now + delays.read) })
    | some time =>
      if time ≤ now then
        some (make (make s (.read call none)) (.resume call),
          .running { course with due := none })
      else none
  match stage with
  | .finding _ => readStep
  | .loading _ _ => readStep
  | .queued _ =>
    match course.deadline, s.config.lockTimeout with
    | none, some timeout =>
      some (s, .running { course with deadline := some (now + timeout.milliseconds) })
    | deadline, _ =>
      let after := make s (.resume call)
      if isQueued after call then
        if hasCome now deadline then some (make after (.expire call), .running course) else none
      else some (after, .running course)
  | .committing _ =>
    let after := make s (.resume call)
    if isCommitting after call then none else some (after, .running course)
  | .storing _ _ _ none =>
    some (make s (.write call none), .running { course with due := some (now + delays.write) })
  | .storing _ _ _ (some _) =>
    if hasCome now course.due then
      some (make s (.resume call), .running { course with due := none })
    else none
  | .finished result => some (s, afterCall now request course result)
  | .aborted => some (s, .ended now .aborted)

/-- Lets a task go on at this instant, if it can. -/
def stepTask (delays : Delays) (now : Nat) (s : System) (task : Task) :
    Status → Option (System × Status)
  | .ended .. => none
  | .waiting =>
    if task.start ≤ now then some (s, beginTask now task.request)
    else if hasCome now task.abortAt then some (s, .ended now .aborted)
    else none
  | .running course =>
    if hasCome now task.abortAt then
      match course.current with
      | none => some (s, .ended now .aborted)
      | some call => some (make s (.abort call), .ended now .aborted)
    else
      match course.current with
      | some call => stepCall delays now s task.request course call
      | none =>
        match course.pending with
        | [] => some (s, .ended now (endingOf task.request course.done))
        | call :: rest =>
          some (s.begin call,
            .running ⟨rest, course.done, some s.calls.length, none, none⟩)

/-- Lets a task go on at this instant until it has to wait, in at most so many
steps. -/
def stepOn (delays : Delays) (now : Nat) (task : Task) :
    Nat → System → Status → System × Status
  | 0, s, status => (s, status)
  | steps + 1, s, status =>
    match stepTask delays now s task status with
    | some (s, status) => stepOn delays now task steps s status
    | none => (s, status)

/-- Lets every task go on at this instant, one after another, each in at most so
many steps; tells whether any of them did. -/
def stepAll (delays : Delays) (now steps : Nat) (s : System) :
    List (Task × Status) → System × List (Task × Status) × Bool
  | [] => (s, [], false)
  | (task, status) :: rest =>
    match stepTask delays now s task status with
    | some (s, status) =>
      let (s, status) := stepOn delays now task steps s status
      let (s, rest, _) := stepAll delays now steps s rest
      (s, (task, status) :: rest, true)
    | none =>
      let (s, rest, moved) := stepAll delays now steps s rest
      (s, (task, status) :: rest, moved)

/-- Lets the tasks go on at this instant until none of them can, in at most so
many rounds with at most so many steps of each task. -/
def exhaust (steps : Nat) : Nat → Timeline → Timeline
  | 0, t => t
  | rounds + 1, t =>
    match stepAll t.delays t.now steps t.system t.tasks with
    | (system, tasks, true) => exhaust steps rounds { t with system, tasks }
    | (_, _, false) => t

/-- The times at which something is due for a task. -/
def timesOf (s : System) : Task × Status → List Nat
  | (task, .waiting) => task.start :: task.abortAt.toList
  | (task, .running course) =>
    let deadline := if course.current.any (isQueued s) then course.deadline else none
    task.abortAt.toList ++ course.due.toList ++ deadline.toList
  | (_, .ended ..) => []

/-- The next instant at which something is due. -/
def next? (t : Timeline) : Option Nat :=
  ((t.tasks.flatMap (timesOf t.system)).filter fun time => t.now < time).min?

/-- Runs through the instants, at most so many, each in at most so many rounds
and as many steps of a task. -/
def runWithin (rounds : Nat) : Nat → Timeline → Timeline
  | 0, t => t
  | instants + 1, t =>
    let t := exhaust rounds rounds t
    match t.next? with
    | none => t
    | some now => runWithin rounds instants { t with now }

/-- The length of values as texts in quotes, at the least one each. -/
def sizeOfValues : List Value → Nat
  | [] => 0
  | value :: rest => value.display.length + 3 + sizeOfValues rest

/-- How many statements a task may have: not more than characters. -/
def size : Request → Nat
  | .run template parameters => template.length + sizeOfValues parameters * template.length
  | .runAll script => script.length
  | .tables => 1

/-- How many statements tasks may have, with one more for each of them. -/
def sizeOfTasks : List Task → Nat
  | [] => 0
  | task :: rest => size task.request + 1 + sizeOfTasks rest

/-- Runs the tasks until nothing is due any more. A statement takes a bounded
number of steps, so there are no more instants and rounds than a multiple of
the size of the tasks. -/
def run (delays : Delays) (system : System) (tasks : List Task) : Timeline :=
  let bound := 16 * (sizeOfTasks tasks + 1)
  runWithin bound bound ⟨delays, 0, system, tasks.map fun task => (task, .waiting)⟩

end Timeline

end EmbeddedSql.Session
