import Prewarm.RateLimit
import Prewarm.WorkQueue.Wakeups

/-!
# Work queues

A queue hands out keys to workers, each key to one at a time. A key that is added while it stands on
the queue is merged with what stands there; one that is added while a worker has it is only marked,
and goes back on the queue when the worker is done, so that a change during the work is not lost.
A key can be added after a delay: it waits until the earliest instant that was asked for, and a
timer then adds it.

All operations are steps of one state. The timer is a list of runs, each either to be run or parked
until an instant, since one is started whenever a delay finds none.
-/

namespace Prewarm

/-- A delay that cannot be kept. -/
inductive DelayFault where
  /-- The limiter has no span of time for the key. -/
  | noDelay
  /-- The clock cannot show the instant. -/
  | noInstant
  deriving DecidableEq, Repr

/-- A run of the timer that adds waiting keys. -/
inductive TimerRun where
  | ready
  | parked (wake : Instant)
  deriving DecidableEq, Repr

/-- A queue of work keys. -/
structure WorkQueue (L : Type := RateLimiter) where
  name : String
  limiter : L
  /-- The keys that can be handed out, the next one first. -/
  queue : List Key := []
  /-- The keys that need work: on the queue, or added while a worker has them. -/
  dirty : List Key := []
  /-- The keys that workers have. -/
  processing : List Key := []
  /-- The keys that are added later, each with its instant. -/
  waiting : Table Key Instant := .empty
  shuttingDown : Bool := false
  getters : Wakeups := {}
  /-- Whether a run of the timer looks after the waiting keys. -/
  timerRunning : Bool := false
  timers : List TimerRun := []
  /-- Whether a call for the timer is kept for the next run that would be parked. -/
  timerPermit : Bool := false

namespace WorkQueue

variable {L : Type}

/-- A key added to a set of keys. -/
def mark (k : Key) (ks : List Key) : List Key := if k ∈ ks then ks else ks ++ [k]

/-- A set of keys without a key. -/
def unmark (k : Key) (ks : List Key) : List Key := ks.filter (· ≠ k)

/-- Puts a key on the queue and calls one who waits for it. -/
def push (q : WorkQueue L) (k : Key) : WorkQueue L :=
  { q with queue := q.queue ++ [k], getters := q.getters.callOne }

/-- Adds a key now. A queue that is shutting down takes no keys. -/
def add (q : WorkQueue L) (k : Key) : WorkQueue L :=
  if q.shuttingDown ∨ k ∈ q.dirty then q
  else
    let q := { q with dirty := mark k q.dirty }
    if k ∈ q.processing then q else q.push k

/-- Makes the parked runs of the timer that satisfy a test ready, at most `n` of them. -/
def wakeTimers (test : Instant → Bool) : Nat → List TimerRun → List TimerRun
  | _, [] => []
  | 0, ts => ts
  | n + 1, .ready :: ts => .ready :: wakeTimers test (n + 1) ts
  | n + 1, .parked t :: ts =>
    if test t then .ready :: wakeTimers test n ts else .parked t :: wakeTimers test (n + 1) ts

/-- Whether a run of the timer is parked. -/
def TimerRun.isParked : TimerRun → Bool
  | .ready => false
  | .parked _ => true

/-- Calls the timer. -/
def callTimer (q : WorkQueue L) : WorkQueue L :=
  if q.timers.any TimerRun.isParked then
    { q with timers := wakeTimers (fun _ => true) 1 q.timers }
  else { q with timerPermit := true }

/-- Sees to it that a run of the timer looks at the waiting keys: starts one if there is none, and
calls it if an instant has come before the one it is parked until. -/
def armTimer (q : WorkQueue L) (earlier : Bool) : WorkQueue L :=
  if ¬ q.timerRunning then { q with timerRunning := true, timers := q.timers ++ [.ready] }
  else if earlier then q.callTimer
  else q

/-- Adds a key at an instant. A key that is dirty already is not added again, and one that waits
already waits until the earlier instant. -/
def addAt (q : WorkQueue L) (k : Key) (due : Instant) : WorkQueue L :=
  if q.shuttingDown ∨ k ∈ q.dirty then q
  else
    match q.waiting.get? k with
    | some t =>
      if due.nanos < t.nanos then
        { q with waiting := q.waiting.insert k due }.armTimer true
      else q.armTimer false
    | none => { q with waiting := q.waiting.insert k due }.armTimer true

/-- Adds a key after a delay. -/
def addAfter (q : WorkQueue L) (k : Key) (now : Instant) (d : Duration) :
    Except DelayFault Unit × WorkQueue L :=
  if d = .zero then (.ok (), q.add k)
  else
    match now.add? d with
    | none => (.error .noInstant, q)
    | some t => (.ok (), q.addAt k t)

/-- Adds a key after the delay that the limiter has for it. -/
def addRateLimited [Limiter L] (q : WorkQueue L) (k : Key) (now : Instant) :
    Except DelayFault Unit × WorkQueue L :=
  match Limiter.delay k now q.limiter with
  | (none, l) => (.error .noDelay, { q with limiter := l })
  | (some d, l) => { q with limiter := l }.addAfter k now d

/-- Counts the additions of a key from the start again. -/
def forget [Limiter L] (q : WorkQueue L) (k : Key) : WorkQueue L :=
  { q with limiter := Limiter.forget k q.limiter }

/-- How often a key was added with a delay of the limiter since it was last forgotten. -/
def requeues [Limiter L] (q : WorkQueue L) (k : Key) : Nat := Limiter.count k q.limiter

/-- What one who asks for a key gets. -/
inductive Answer where
  | key (k : Key)
  /-- There are no keys any more. -/
  | closed
  /-- There is no key yet, and the one who asked is asleep. -/
  | asleep
  deriving DecidableEq, Repr

/-- Asks for a key. -/
def ask (q : WorkQueue L) (g : GetterId) : Answer × WorkQueue L :=
  let q := { q with getters := q.getters.run g }
  if q.shuttingDown then (.closed, q)
  else
    match q.queue with
    | k :: ks =>
      (.key k,
        { q with queue := ks, dirty := unmark k q.dirty, processing := mark k q.processing })
    | [] => (.asleep, { q with getters := q.getters.sleep g })

/-- One who waits for a key leaves without one. -/
def leave (q : WorkQueue L) (g : GetterId) : WorkQueue L := { q with getters := q.getters.leave g }

/-- The work on a key is done. A key that became dirty meanwhile goes back on the queue. -/
def done (q : WorkQueue L) (k : Key) : WorkQueue L :=
  let q := { q with processing := unmark k q.processing }
  if k ∈ q.dirty then q.push k else q

/-- Takes no more keys, lets the waiting ones go, and calls all who wait. -/
def shutDown (q : WorkQueue L) : WorkQueue L :=
  { q with shuttingDown := true, waiting := .empty, getters := q.getters.callAll }.callTimer

/-- The waiting keys whose instants are reached, the earliest first. -/
def due (q : WorkQueue L) (now : Instant) : List Key :=
  ((q.waiting.entries.filter (fun e => e.2.reached now)).mergeSort
    (fun a b => decide (a.2.nanos ≤ b.2.nanos))).map Prod.fst

/-- The earliest instant that a key waits for. -/
def nextDue? (q : WorkQueue L) : Option Instant :=
  match q.waiting.values with
  | [] => none
  | t :: ts => some (ts.foldl Instant.earlier t)

/-- The timers without the first that is ready. -/
def dropReady : List TimerRun → List TimerRun
  | [] => []
  | .ready :: ts => ts
  | t :: ts => t :: dropReady ts

/-- A run of the timer: adds the keys whose instants are reached and parks until the next one. The
run ends when no key waits or the queue shuts down. -/
def runTimer (q : WorkQueue L) (now : Instant) : WorkQueue L :=
  if .ready ∈ q.timers then
    let q := { q with timers := dropReady q.timers }
    if q.shuttingDown then { q with timerRunning := false }
    else
      let ks := q.due now
      let q := { q with waiting := q.waiting.filter (fun _ t => ¬ t.reached now) }
      match q.nextDue? with
      | none => ks.foldl add { q with timerRunning := false }
      | some t =>
        let q := ks.foldl add q
        { q with timers := q.timers ++ [.parked t], timerPermit := false }
  else q

/-- Makes the runs of the timer ready that are parked until an instant that is reached. -/
def tick (q : WorkQueue L) (now : Instant) : WorkQueue L :=
  { q with timers := wakeTimers (fun t => t.reached now) q.timers.length q.timers }

/-- The number of keys that can be handed out. -/
def size (q : WorkQueue L) : Nat := q.queue.length

/-- A queue with a limiter and no keys. -/
def withLimiter (name : String) (limiter : L) : WorkQueue L := { name, limiter }

end WorkQueue

end Prewarm
