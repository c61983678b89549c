import Prewarm.WorkQueue.Outcome

/-!
# Pools of workers

Those who take keys from a queue, what they do with them, and the order in which they run. Work on a
key runs apart from the one who took the key, who waits for its outcome. Whatever can run stands in
one line and runs in that order, one step at a time; when nothing can run, the clock moves on to the
next instant that something waits for. What the work reads and changes is the pool's `world`.
-/

namespace Prewarm

/-- What one who takes keys does with them. -/
inductive Role where
  /-- Takes one key and keeps it. -/
  | keeper
  /-- Works on one key. -/
  | helper
  /-- Works on keys until there are none any more. -/
  | worker
  deriving DecidableEq, Repr

/-- Where one who takes keys stands. -/
inductive Stand where
  /-- Asks for a key. -/
  | asking
  /-- Waits for the outcome of work on a key. -/
  | working (k : Key)
  /-- Has ended, with or without a key. -/
  | ended (gotKey : Bool)
  /-- Has broken off because a key could not be handed back. -/
  | crashed
  deriving DecidableEq, Repr

/-- One who takes keys. -/
structure Taker where
  role : Role
  stand : Stand := .asking
  deriving DecidableEq, Repr

/-- Something that can run. -/
inductive Task (ρ : Type) where
  /-- One who takes keys asks for one. -/
  | ask (g : GetterId)
  /-- Work on a key that someone took begins. -/
  | start (g : GetterId) (k : Key)
  /-- Work on a key goes on after a rest. -/
  | resume (g : GetterId) (k : Key) (rest : ρ)
  /-- The work of someone has ended. -/
  | finish (g : GetterId) (o : Outcome)
  /-- The timer of the queue looks at the keys that wait. -/
  | timer

/-- What work on a key comes to: its outcome, or a rest until an instant. -/
inductive Progress (ρ : Type) where
  | ended (o : Outcome)
  | resting (wake : Instant) (rest : ρ)

/-- How work on a key changes the world, and how it is seen that a key is kept. -/
structure Craft (ω ρ : Type) where
  start : Instant → Key → ω → Progress ρ × ω
  resume : Instant → Key → ρ → ω → Outcome × ω
  /-- Someone keeps a key, or has found that there are none any more. -/
  kept : Instant → GetterId → Option Key → ω → ω

/-- Work on a key that rests until an instant. -/
structure Resting (ρ : Type) where
  wake : Instant
  taker : GetterId
  key : Key
  rest : ρ

/-- What is to run when a rest is over. -/
def Resting.task {ρ : Type} (r : Resting ρ) : Task ρ := .resume r.taker r.key r.rest

/-- A pool of workers at a queue. -/
structure Pool (ω ρ : Type) (L : Type := RateLimiter) where
  now : Instant
  queue : WorkQueue L
  world : ω
  takers : Table GetterId Taker := .empty
  /-- What can run, the first first. -/
  line : List (Task ρ) := []
  /-- The work that rests. -/
  resting : List (Resting ρ) := []
  nextId : GetterId := 0

namespace Pool

variable {ω ρ L : Type}

/-- The ones in line to ask for a key. -/
def askers (line : List (Task ρ)) : List GetterId :=
  line.filterMap (fun t => match t with
    | .ask g => some g
    | _ => none)

/-- The number of runs of the timer in line. -/
def timersInLine (line : List (Task ρ)) : Nat :=
  line.countP (fun t => match t with
    | .timer => true
    | _ => false)

/-- Puts those who were woken, and the runs of the timer that are ready, at the end of the line. -/
def gather (p : Pool ω ρ L) : Pool ω ρ L :=
  let woken := (p.queue.getters.woken.map Prod.fst).filter (· ∉ askers p.line)
  let ready := p.queue.timers.count .ready - timersInLine p.line
  { p with line := p.line ++ woken.map .ask ++ List.replicate ready .timer }

/-- The pool after a step of its queue. -/
def onQueue (p : Pool ω ρ L) (f : WorkQueue L → WorkQueue L) : Pool ω ρ L :=
  { p with queue := f p.queue }.gather

/-- The pool after a step of its queue that may fail. -/
def tryQueue (p : Pool ω ρ L) (f : WorkQueue L → Except DelayFault Unit × WorkQueue L) :
    Except DelayFault Unit × Pool ω ρ L :=
  let (r, q) := f p.queue
  (r, { p with queue := q }.gather)

/-- Notes where one who takes keys stands. -/
def place (p : Pool ω ρ L) (g : GetterId) (t : Taker) : Pool ω ρ L :=
  { p with takers := p.takers.insert g t }

/-- Adds one who takes keys, at the end of the line. -/
def join (p : Pool ω ρ L) (r : Role) : GetterId × Pool ω ρ L :=
  (p.nextId,
    { p.place p.nextId { role := r } with
      line := p.line ++ [.ask p.nextId]
      nextId := p.nextId + 1 })

/-- Adds workers. -/
def joinWorkers (p : Pool ω ρ L) : Nat → Pool ω ρ L
  | 0 => p
  | n + 1 => (p.join .worker).2.joinWorkers n

/-- One who takes keys goes. Work that was begun goes on without it. -/
def dismiss (p : Pool ω ρ L) (g : GetterId) : Pool ω ρ L :=
  { p with takers := p.takers.erase g }.onQueue (·.leave g)

/-- Asks for a key on behalf of one who takes keys. -/
def askFor (c : Craft ω ρ) (p : Pool ω ρ L) (g : GetterId) (r : Role) : Pool ω ρ L :=
  match p.queue.ask g with
  | (.asleep, q) => { p with queue := q }.gather
  | (.closed, q) =>
    let p := { p with queue := q }.place g ⟨r, .ended false⟩ |>.gather
    match r with
    | .keeper => { p with world := c.kept p.now g none p.world }
    | _ => p
  | (.key k, q) =>
    let p := { p with queue := q }.gather
    match r with
    | .keeper => { p.place g ⟨r, .ended true⟩ with world := c.kept p.now g (some k) p.world }
    | _ => { p.place g ⟨r, .working k⟩ with line := p.line ++ [.start g k] }

/-- Takes note that work has ended. The one who took the key hands it back, and a worker asks for
the next. -/
def finish [Limiter L] (c : Craft ω ρ) (p : Pool ω ρ L) (g : GetterId) (o : Outcome) : Pool ω ρ L :=
  match p.takers.get? g with
  | some ⟨r, .working k⟩ =>
    match p.tryQueue (·.handBack k o p.now) with
    | (.error _, p) => p.place g ⟨r, .crashed⟩
    | (.ok (), p) =>
      match r with
      | .worker => askFor c (p.place g ⟨r, .asking⟩) g r
      | _ => p.place g ⟨r, .ended true⟩
  | _ => p

/-- Runs one task. -/
def perform [Limiter L] (c : Craft ω ρ) (p : Pool ω ρ L) : Task ρ → Pool ω ρ L
  | .ask g =>
    match p.takers.get? g with
    | some ⟨r, .asking⟩ => askFor c p g r
    | _ => p
  | .start g k =>
    match c.start p.now k p.world with
    | (.ended o, w) => { p with world := w, line := p.line ++ [.finish g o] }
    | (.resting wake rest, w) =>
      { p with world := w, resting := p.resting ++ [⟨wake, g, k, rest⟩] }
  | .resume g k rest =>
    let (o, w) := c.resume p.now k rest p.world
    { p with world := w, line := p.line ++ [.finish g o] }
  | .finish g o => finish c p g o
  | .timer => p.onQueue (·.runTimer p.now)

/-- Runs the first task in line. -/
def step? [Limiter L] (c : Craft ω ρ) (p : Pool ω ρ L) : Option (Pool ω ρ L) :=
  match p.line with
  | [] => none
  | t :: ts => some (perform c { p with line := ts } t)

/-- Runs tasks until none is in line, or `fuel` have run. -/
def settle [Limiter L] (c : Craft ω ρ) : Nat → Pool ω ρ L → Pool ω ρ L
  | 0, p => p
  | fuel + 1, p =>
    match p.step? c with
    | none => p
    | some p => settle c fuel p

/-- The milliseconds in which something that waits is due. -/
def alarms (p : Pool ω ρ L) : List Nat :=
  p.queue.timers.filterMap (fun t => match t with
    | .ready => none
    | .parked wake => some wake.ceilMillis) ++
  p.resting.map (·.wake.ceilMillis)

/-- The next millisecond in which something that waits is due. -/
def nextAlarm? (p : Pool ω ρ L) : Option Nat := p.alarms.min?

/-- Moves the clock and puts what is due in line. -/
def moveTo (p : Pool ω ρ L) (now : Instant) : Pool ω ρ L :=
  let due := p.resting.filter (·.wake.reached now)
  { p with
    now := now
    resting := p.resting.filter (fun r => ¬ r.wake.reached now)
    line := p.line ++ due.map Resting.task }.onQueue (·.tick now)

/-- Lets time pass until a test holds or a millisecond is reached, and says whether the test holds.
Every alarm on the way rings in its own millisecond, and what it sets off has run before the next
one. `fuel` bounds the alarms, and `effort` the tasks that one of them sets off. -/
def passTime [Limiter L] (c : Craft ω ρ) (effort : Nat) (test : Pool ω ρ L → Bool) (limit : Nat) :
    Nat → Pool ω ρ L → Bool × Pool ω ρ L
  | 0, p => (test p, p.moveTo (.ofMillis limit))
  | fuel + 1, p =>
    if test p then (true, p)
    else
      match p.nextAlarm? with
      | some ms =>
        if ms ≤ limit then
          passTime c effort test limit fuel (settle c effort (p.moveTo (.ofMillis ms)))
        else (false, p.moveTo (.ofMillis limit))
      | none => (false, p.moveTo (.ofMillis limit))

end Pool

end Prewarm
