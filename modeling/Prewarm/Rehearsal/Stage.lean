import Prewarm.Rehearsal.World
import Prewarm.Store.Enqueue

/-!
# Rehearsals

A run of the whole engine on a clock of its own: stores, queue and workers, driven from outside one
move at a time. After each move everything that can run has run. A move that breaks off ends the
run; a worker of a group that breaks off does not.
-/

namespace Prewarm.Rehearsal

/-- A run of the engine. -/
structure Stage where
  pool : Pool World Verdict
  /-- The rules by which changes of the two stores put keys on the queue, if any. -/
  rules : Option (EnqueueRule × EnqueueRule)
  /-- The workers of each group that was started. -/
  groups : List (List GetterId) := []
  /-- Whether the groups were told to stop. -/
  cancelled : Bool := false
  /-- Whether a move has broken off. The whole run breaks off with it. -/
  brokenOff : Bool := false

namespace Stage

/-- The most tasks that run at one instant. -/
def effort : Nat := 1_000_000

/-- A run that has not begun. -/
def opening (limiter : RateLimiter) (rules : Option (EnqueueRule × EnqueueRule)) (w : World) :
    Stage where
  pool := { now := .start, queue := .withLimiter "q" limiter, world := w }
  rules := rules

/-- Runs what can run. -/
def settle (s : Stage) : Stage := { s with pool := s.pool.settle craft effort }

/-- A move of the queue. -/
def onQueue (s : Stage) (f : WorkQueue → WorkQueue) : Stage :=
  { s with pool := s.pool.onQueue f }.settle

/-- A move of the queue that may break off. -/
def tryQueue (s : Stage) (f : Instant → WorkQueue → Except DelayFault Unit × WorkQueue) : Stage :=
  let (r, p) := s.pool.tryQueue (f s.pool.now)
  { s with pool := p, brokenOff := s.brokenOff || !r.isOk }.settle

/-- A change of the world. -/
def onWorld (s : Stage) (f : World → World) : Stage :=
  { s with pool := { s.pool with world := f s.pool.world } }

/-- Asks for a key and leaves without one if there is none yet. -/
def take (s : Stage) : WorkQueue.Answer × Stage :=
  let g := s.pool.nextId
  let (a, q) := s.pool.queue.ask g
  let q := if a = .asleep then q.leave g else q
  (a, { s with pool := { s.pool with queue := q, nextId := g + 1 }.gather }.settle)

/-- Lets someone wait for a key. -/
def wait (s : Stage) : GetterId × Stage :=
  let (g, p) := s.pool.join .keeper
  (g, { s with pool := p }.settle)

/-- Puts the keys of changes on the queue. -/
def enqueue (s : Stage) (keys : List Key) : Stage :=
  s.tryQueue (fun now q => q.addAllRateLimited now keys)

/-- A change of the store of warm images. -/
def onWarmImages (s : Stage) (f : Store WarmImage → Store WarmImage × List (Note WarmImage)) :
    Stage :=
  let (store, notes) := f s.pool.world.warmImages
  let keys := s.rules.elim [] (fun r => r.1.keys notes)
  (s.onWorld (fun w => { w with warmImages := store })).enqueue keys

/-- A change of the store of daemon sets. -/
def onDaemonSets (s : Stage) (f : Store DaemonSet → Store DaemonSet × List (Note DaemonSet)) :
    Stage :=
  let (store, notes) := f s.pool.world.daemonSets
  let keys := s.rules.elim [] (fun r => r.2.keys notes)
  (s.onWorld (fun w => { w with daemonSets := store })).enqueue keys

/-- Files daemon sets, one after the other, unless the run breaks off. -/
def fileAll (s : Stage) : List DaemonSet → Stage
  | [] => s
  | d :: ds =>
    let s := s.onDaemonSets (·.upsert d)
    if s.brokenOff then s else s.fileAll ds

/-- Files every child that was created, in the order of their creation. -/
def observeCreated (s : Stage) : Stage := s.fileAll s.pool.world.created

/-- Works on a key without the queue. -/
def reconcile (s : Stage) (k : Key) : Except Reconcile.Failure Unit × Stage :=
  let (r, w) := s.pool.world.reconcile s.pool.now k
  (r, (s.onWorld (fun _ => w)).settle)

/-- Whether one who takes keys has ended. -/
def hasEnded (g : GetterId) (p : Pool World Verdict) : Bool :=
  match p.takers.get? g with
  | some ⟨_, .ended _⟩ | some ⟨_, .crashed⟩ | none => true
  | some _ => false

/-- How an attempt to work on the next key ends. -/
inductive Attempt where
  | worked
  | noKeys
  | crashed
  /-- Its time was up. -/
  | blocked
  deriving DecidableEq, Repr

/-- Works on the next key, for a number of milliseconds at most. -/
def process (s : Stage) (millis : Nat) : Attempt × Stage :=
  let (g, p) := s.pool.join .helper
  let limit := p.now.millis + millis
  let (_, p) := (p.settle craft effort).passTime craft effort (hasEnded g) limit (millis + 1)
  let s := { s with pool := p.dismiss g }.settle
  match (p.takers.get? g).map Taker.stand with
  | some (.ended gotKey) => (if gotKey then .worked else .noKeys, s)
  | some .crashed => (.crashed, { s with brokenOff := true })
  | _ => (.blocked, s)

/-- Tells the groups of workers to stop once they have handed back the keys they have. -/
def cancel (s : Stage) : Stage :=
  let s := { s with cancelled := true }
  if s.groups.isEmpty then s else s.onQueue (·.shutDown)

/-- Starts a group of workers, at least one. -/
def run (s : Stage) (threads : Nat) : Stage :=
  let first := s.pool.nextId
  let p := s.pool.joinWorkers (max threads 1)
  let s := { s with
    pool := p
    groups := s.groups ++ [(List.range (max threads 1)).map (first + ·)] }
  if s.cancelled then s.onQueue (·.shutDown) else s.settle

/-- Whether every group of workers has stopped. -/
def hasFinished (s : Stage) : Bool :=
  s.cancelled && s.groups.all (·.all (hasEnded · s.pool))

/-- Lets a number of milliseconds pass. -/
def advance (s : Stage) (millis : Nat) : Stage :=
  let limit := s.pool.now.millis + millis
  { s with
    pool := (s.pool.passTime craft effort (fun _ => false) limit (millis + 1)).2 }.settle

/-- What was seen since the last look, the first first. -/
def look (s : Stage) : List (Instant × Effect) × Stage :=
  (s.pool.world.log.reverse, s.onWorld (fun w => { w with log := [] }))

end Stage

end Prewarm.Rehearsal
