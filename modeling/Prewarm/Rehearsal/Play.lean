import Prewarm.Rehearsal.Api

/-!
# Rehearsing the controller

A run of the whole controller with a cluster in memory, on a clock of its own. At each instant the
controller first looks at its stores, if it waits for them, and then everything that can run runs.
-/

namespace Prewarm.Rehearsal

/-- A run of the controller. -/
abbrev Play := Controller Api

namespace Play

/-- Sends a request of the controller, whose reply comes at once. -/
def send (c : Play) (r : Cluster.Request) : Cluster.Reply × Play :=
  let w := c.pool.world
  let (reply, api) := Api.host.reply c.pool.now r w.host
  (reply, { c with pool := { c.pool with world := { w with host := api } } })

/-- What the request of a reflector comes to: an answer to it, or a failure if it is not sent. -/
def exchange {α : Type} [Cluster.Listed α] (c : Play) (address : Option Cluster.Address)
    (q : Reflector.Request) : Reflector.Input α × Play :=
  match address, q with
  | some a, .list =>
    let (reply, c) := send c ⟨.get, a, none⟩
    (.listed (Cluster.listed reply), c)
  | some a, .watch _ => (.opened (.ok ()), (send c ⟨.get, a, none⟩).2)
  | none, .list => (.listed (.error .unreadable), c)
  | none, .watch _ => (.opened (.error .unreadable), c)

/-- Answers the reflector of warm images, if it asks for something. -/
def serveWarmImages? (c : Play) : Option Play := do
  let q ← c.pool.world.warmImages.request?
  let (i, c) := exchange c (Controller.addressOf? c.config .warmImage [] q) q
  return c.feedWarmImages i

/-- Answers the reflector of daemon sets, if it asks for something. -/
def serveDaemonSets? (c : Play) : Option Play := do
  let q ← c.pool.world.daemonSets.request?
  let (i, c) := exchange c (Controller.addressOf? c.config .daemonSet Controller.childSelector q) q
  return c.feedDaemonSets i

/-- Lets the workers take one step. -/
def work? (c : Play) : Option Play :=
  (c.pool.step? (Controller.craft Api.host)).map (fun p => { c with pool := p })

/-- Lets one thing happen that can happen now. -/
def step? (c : Play) : Option Play :=
  (serveWarmImages? c).or ((serveDaemonSets? c).or (work? c))

/-- Lets things happen until nothing can, or `fuel` have. -/
def settle : Nat → Play → Play
  | 0, c => c
  | fuel + 1, c =>
    match step? c with
    | none => c.rest
    | some c => settle fuel c

/-- The most things that happen at one instant. -/
def effort : Nat := 1_000_000

/-- Lets all that were told to stop take note of it. -/
def heedAll (c : Play) : Play :=
  if c.cancelled then Controller.heed ((c.feedWarmImages .stop).feedDaemonSets .stop) else c

/-- A run that begins. -/
def opening (config : Config) (api : Api) : Play :=
  settle effort (heedAll (Controller.look (.opening config .start api)))

/-- Moves the clock, and lets happen what is due. -/
def moveTo (c : Play) (millis : Nat) : Play :=
  let c : Play := { c with pool := c.pool.moveTo (.ofMillis millis) }
  settle effort (((heedAll (Controller.look c)).feedWarmImages .tick).feedDaemonSets .tick)

/-- Lets time pass until a millisecond is reached, with at most `fuel` alarms on the way. -/
def passTime (limit : Nat) : Nat → Play → Play
  | 0, c => moveTo c limit
  | fuel + 1, c =>
    match c.alarms.min? with
    | some ms => if ms < limit then passTime limit fuel (moveTo c ms) else moveTo c limit
    | none => moveTo c limit

/-- Lets a number of milliseconds pass. -/
def advance (c : Play) (millis : Nat) : Play :=
  passTime (c.pool.now.millis + millis) (millis + 1) c

/-- Lets the watch of warm images tell of something. -/
def tellOfWarmImages (c : Play) (i : Reflector.Input WarmImage) : Play :=
  settle effort (c.feedWarmImages i)

/-- Lets the watch of daemon sets tell of something. -/
def tellOfDaemonSets (c : Play) (i : Reflector.Input DaemonSet) : Play :=
  settle effort (c.feedDaemonSets i)

/-- Tells the controller to stop. -/
def stop (c : Play) : Play := settle effort (heedAll (Controller.cancel c))

/-- Changes the cluster. -/
def onApi (c : Play) (f : Api → Api) : Play :=
  { c with
    pool := { c.pool with
      world := { c.pool.world with host := f c.pool.world.host } } }

/-- What was asked since the last look, the first first. -/
def seen (c : Play) : List (Instant × Asked) × Play :=
  (c.pool.world.host.log.reverse, onApi c (fun a => { a with log := [] }))

end Play

end Prewarm.Rehearsal
