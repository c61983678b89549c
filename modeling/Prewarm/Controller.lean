import Prewarm.CacheSync
import Prewarm.Cluster.Recorder
import Prewarm.Cluster.Watch
import Prewarm.Config
import Prewarm.Pool
import Prewarm.Store.Enqueue

/-!
# The controller

The controller keeps two stores up to date, of the warm images and of their children, and works on
the keys that their changes put on its queue. No worker starts before both stores have held a whole
listing; if that takes too long, the controller gives up. When it is told to stop, the queue takes
no more keys and the controller ends as soon as the workers have handed back theirs.

To be told to stop is one thing (`cancel`), and to take note of it another: the two reflectors and
the controller itself do so each on its own, and each may do something else before.

All of this is a state with a step for each thing that can happen. What answers the controller's
requests is left open (`Host`).
-/

namespace Prewarm

/-- What answers requests: a cluster and registries, with what they remember. -/
structure Host (χ : Type) where
  /-- The reply to a request to the cluster. -/
  reply : Instant → Cluster.Request → StateM χ Cluster.Reply
  /-- The reply to the record of an event. -/
  replyToRecord : Instant → Cluster.EventRecord → StateM χ Cluster.Reply
  /-- The reply of a registry, if it can be reached. -/
  replyOfRegistry : Instant → Registry.Request → StateM χ (Option Registry.Reply)

namespace Controller

/-- The name under which the controller records events. -/
def name : String := "warmimage-controller"

/-- The name of the controller's queue. -/
def queueName : String := "WarmImages"

/-- The selector of the daemon sets that are children at all. -/
def childSelector : Selector := [.present Generation.controllerLabel]

/-- The rule by which changes of warm images put keys on the queue. -/
def parentRule : EnqueueRule := .itself

/-- The rule by which changes of daemon sets put keys on the queue. -/
def childRule : EnqueueRule := .manager ObjectType.warmImage.kind.kind

/-- What the workers read and change. -/
structure Surroundings (χ : Type) where
  warmImages : Reflector WarmImage
  daemonSets : Reflector DaemonSet
  sleeperImage : String
  expectations : Expectations := .standard
  recorder : Cluster.Recorder := { controller := name }
  host : χ

/-- How the controller has ended. -/
inductive End where
  /-- It was told to stop. -/
  | stopped
  /-- The stores have not held a listing in time. -/
  | notSynced (timeout : Duration)
  /-- The clock cannot show when the stores have to have held a listing. -/
  | noDeadline
  deriving DecidableEq, Repr

/-- What is said of a span of whole seconds. -/
def secondsText (d : Duration) : String :=
  if d.nanos = 0 then "0ns" else toString d.seconds ++ "s"

/-- What is said of a controller that has given up. -/
def End.message : End → Option String
  | notSynced timeout => some ("caches did not sync within " ++ secondsText timeout)
  | _ => none

/-- What the controller is at. -/
inductive Stage where
  /-- It waits for the stores. -/
  | syncing (w : CacheSync)
  /-- Its workers work. -/
  | working
  /-- It has taken note that it was told to stop, and waits for its workers and reflectors. -/
  | stopping
  | ended (e : End)
  deriving DecidableEq, Repr

end Controller

open Controller in
/-- A controller. -/
structure Controller (χ : Type) where
  config : Config
  pool : Pool (Surroundings χ) Empty
  stage : Stage
  workers : List GetterId := []
  /-- Whether it was told to stop. -/
  cancelled : Bool := false

namespace Controller

variable {χ : Type}

namespace Surroundings

/-- Makes a call of the cluster. -/
def call {α : Type} (h : Host χ) (now : Instant) (c : Cluster.Call α) (s : Surroundings χ) :
    Except ClusterError α × Surroundings χ :=
  let (r, host) := (c.run (h.reply now)).run s.host
  (r, { s with host := host })

/-- The answer to what work on a key asks, and what it leaves. -/
def answer (h : Host χ) (now : Instant) : (q : Reconcile.Query) → StateM (Surroundings χ) q.Answer
  | .isPending k v => fun s =>
    let (b, e) := s.expectations.isPending k v now
    (b, { s with expectations := e })
  | .expect k v => fun s => ((), { s with expectations := s.expectations.expect k v now })
  | .observed k => fun s => ((), { s with expectations := s.expectations.observed k })
  | .secret ns name => fun s => s.call h now (Cluster.readSecret ns name)
  | .digest t logins => fun s =>
    let talk := (Registry.resolve t logins).run
    let (r, host) := (talk.run (h.replyOfRegistry now)).run s.host
    (r, { s with host := host })
  | .create ns child => fun s =>
    let (r, s) := s.call h now (Cluster.create ns child)
    (r.map (fun _ => ()), s)
  | .deleteCollection ns sel p => fun s => s.call h now (Cluster.deleteCollection ns sel p)
  | .publish about e => fun s =>
    let ((r, recorder), host) := ((s.recorder.publish about e).run (h.replyToRecord now)).run s.host
    (r, { s with recorder := recorder, host := host })

/-- What work on a key reads. -/
def context (s : Surroundings χ) : Reconcile.Context :=
  ⟨.forController, s.warmImages.store, s.daemonSets.store, s.sleeperImage⟩

/-- Works on a key. -/
def work (h : Host χ) (now : Instant) (k : Key) (s : Surroundings χ) :
    Progress Empty × Surroundings χ :=
  let (r, s) := ((Reconcile.dialogue s.context k).run (answer h now)).run s
  (.ended (.ofResult r), s)

end Surroundings

/-- The work of the controller. -/
def craft (h : Host χ) : Craft (Surroundings χ) Empty where
  start := Surroundings.work h
  resume _ _ rest _ := nomatch rest
  kept _ _ _ s := s

/-- A controller that begins. -/
def opening (config : Config) (now : Instant) (host : χ) : Controller χ where
  config := config
  pool :=
    { now := now
      queue := .withLimiter queueName (.standard now)
      world :=
        { warmImages := { resync := config.resync }
          daemonSets := { resync := config.resync }
          sleeperImage := config.sleeperImage
          host := host } }
  stage := (CacheSync.begin? now config.cacheSyncTimeout).elim (.ended .noDeadline) .syncing

/-- Whether the stores have held a whole listing, that of the warm images first. -/
def synced (c : Controller χ) : List Bool :=
  [c.pool.world.warmImages.store.synced, c.pool.world.daemonSets.store.synced]

/-- Puts the keys of changes on the queue, and says whether it could put all of them there. -/
def enqueue (c : Controller χ) (keys : List Key) : Except DelayFault Unit × Controller χ :=
  let (r, pool) := c.pool.tryQueue (·.addAllRateLimited c.pool.now keys)
  (r, { c with pool })

/-- The controller after its world has changed. -/
def onWorld (c : Controller χ) (f : Surroundings χ → Surroundings χ) : Controller χ :=
  { c with pool := { c.pool with world := f c.pool.world } }

/-- Lets something happen to a reflector, which `put` notes in the world. The rule says which keys
the changes put on the queue, and the reflector breaks off if some of them cannot be put there. -/
def feed {α : Type} [Resource α] (c : Controller χ) (rule : EnqueueRule) (r : Reflector α)
    (put : Reflector α → Surroundings χ → Surroundings χ) (i : Reflector.Input α) : Controller χ :=
  let (r', notes) := r.step c.pool.now i
  match (c.onWorld (put r')).enqueue (rule.keys notes) with
  | (.ok (), c) => c
  | (.error _, c) => c.onWorld (put (r'.breakOff r))

/-- Lets something happen to the reflector of warm images. -/
def feedWarmImages (c : Controller χ) (i : Reflector.Input WarmImage) : Controller χ :=
  c.feed parentRule c.pool.world.warmImages (fun r w => { w with warmImages := r }) i

/-- Lets something happen to the reflector of daemon sets. -/
def feedDaemonSets (c : Controller χ) (i : Reflector.Input DaemonSet) : Controller χ :=
  c.feed childRule c.pool.world.daemonSets (fun r w => { w with daemonSets := r }) i

/-- Tells the controller and its reflectors to stop. -/
def cancel (c : Controller χ) : Controller χ := { c with cancelled := true }

/-- Ends the wait for the stores in vain, which is an error unless the controller was told to stop
before. -/
def giveUp (c : Controller χ) : Controller χ :=
  { c.cancel with
    pool := c.pool.onQueue (·.shutDown)
    stage := .ended (if c.cancelled then .stopped else .notSynced c.config.cacheSyncTimeout) }

/-- Starts the workers. -/
def startWorkers (c : Controller χ) : Controller χ :=
  let n := max c.config.workers 1
  { c with
    pool := c.pool.joinWorkers n
    workers := (List.range n).map (c.pool.nextId + ·)
    stage := .working }

/-- Looks at the stores if it is time to: starts the workers if both have held a whole listing, and
gives up if they should have by now or the controller was told to stop. -/
def look (c : Controller χ) : Controller χ :=
  match c.stage with
  | .syncing w =>
    match w.look c.pool.now (c.synced.all id) with
    | .synced => c.startWorkers
    | .late => c.giveUp
    | .waiting w => if c.cancelled then c.giveUp else { c with stage := .syncing w }
  | _ => c

/-- Takes note that the controller was told to stop: it gives up if it waits for the stores, and
shuts the queue down if its workers work. -/
def heed (c : Controller χ) : Controller χ :=
  match c.stage with
  | .syncing _ => c.giveUp
  | .working => { c with pool := c.pool.onQueue (·.shutDown), stage := .stopping }
  | _ => c

/-- Whether the workers have ended. -/
def isIdle (c : Controller χ) : Bool :=
  c.workers.all fun g =>
    match (c.pool.takers.get? g).map Taker.stand with
    | some .asking | some (.working _) => false
    | _ => true

/-- Whether the reflectors have ended. -/
def reflectorsEnded (c : Controller χ) : Bool :=
  c.pool.world.warmImages.phase.isFinal && c.pool.world.daemonSets.phase.isFinal

/-- Ends a controller that stops and whose workers and reflectors have ended. -/
def rest (c : Controller χ) : Controller χ :=
  if c.stage = .stopping ∧ c.isIdle ∧ c.reflectorsEnded then { c with stage := .ended .stopped }
  else c

/-- Where a reflector sends its request to the cluster. -/
def addressOf? (config : Config) (t : ObjectType) (s : Selector) :
    Reflector.Request → Option Cluster.Address
  | .list => Cluster.listAddress? t config.ns? s
  | .watch version => Cluster.watchAddress? t config.ns? s version

/-- The instants something of the controller waits for. -/
def alarms (c : Controller χ) : List Nat :=
  let stage := match c.stage with
    | .syncing w => [w.alarm]
    | _ => []
  stage ++ (c.pool.world.warmImages.alarms ++ c.pool.world.daemonSets.alarms).map
    Instant.ceilMillis ++ c.pool.alarms

end Controller

end Prewarm
