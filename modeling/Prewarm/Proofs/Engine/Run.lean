import Prewarm.Controller
import Prewarm.Proofs.Pool.Tasks
import Prewarm.Proofs.Store.Writes

/-!
# Runs of the engine

The engine is a pool of workers at a queue and the two stores whose changes put keys on the queue. A
`Run` is whatever can happen to it while the queue does not shut down, in any order: the stores are
written, others join the workers, anything that can run does so, time passes, and what the work
reads and answers to it changes. What is seen of a run is its changes of the stores and its work on
keys (`Event`).
-/

namespace Prewarm

/-- A pool of workers, and the stores whose changes put keys on its queue. -/
structure Engine (ω ρ L : Type) where
  pool : Pool ω ρ L
  warmImages : Store WarmImage := {}
  daemonSets : Store DaemonSet := {}

namespace Engine

section
variable {ω ρ L : Type}

/-- An engine without workers, with empty stores and a queue without keys. -/
def opening (now : Instant) (l : L) (w : ω) : Engine ω ρ L where
  pool := { now := now, queue := .withLimiter Controller.queueName l, world := w }

variable [Limiter L]

/-- Puts the keys of changes on the queue. -/
def enqueue (e : Engine ω ρ L) (keys : List Key) : Engine ω ρ L :=
  { e with pool := (e.pool.tryQueue (·.addAllRateLimited e.pool.now keys)).2 }

/-- The engine after a write to the store of warm images. -/
def writeWarmImages (e : Engine ω ρ L) (w : Store.Write WarmImage) : Engine ω ρ L :=
  { e with warmImages := (e.warmImages.write w).1 }.enqueue
    (Controller.parentRule.keys (e.warmImages.write w).2)

/-- The engine after a write to the store of daemon sets. -/
def writeDaemonSets (e : Engine ω ρ L) (w : Store.Write DaemonSet) : Engine ω ρ L :=
  { e with daemonSets := (e.daemonSets.write w).1 }.enqueue
    (Controller.childRule.keys (e.daemonSets.write w).2)

/-- Something that is seen of an engine. -/
inductive Event where
  | warmImage (n : Note WarmImage)
  | daemonSet (n : Note DaemonSet)
  | work (d : Pool.Deed)

/-- What is seen of the work on keys. -/
def deeds (τ : List Event) : List Pool.Deed :=
  τ.filterMap (fun v => match v with
    | .work d => some d
    | _ => none)

/-- Something that happens to an engine, with what is seen of it. A task runs whatever its place in
the line, and the work on keys finds any world and leaves any. -/
inductive Step (c : Craft ω ρ) (e : Engine ω ρ L) : List Event → Engine ω ρ L → Prop
  | writeWarmImages (w : Store.Write WarmImage) :
      Step c e ((e.warmImages.write w).2.map .warmImage) (e.writeWarmImages w)
  | writeDaemonSets (w : Store.Write DaemonSet) :
      Step c e ((e.daemonSets.write w).2.map .daemonSet) (e.writeDaemonSets w)
  | perform {t : Task ρ} (before after : List (Task ρ)) {p : Pool ω ρ L} :
      e.pool.line = before ++ t :: after →
      p = Pool.perform c { e.pool with line := before ++ after } t →
      Step c e ((e.pool.deeds p t).map .work) { e with pool := p }
  | join {r : Role} : r ≠ .keeper → Step c e [] { e with pool := (e.pool.join r).2 }
  | pass {now : Instant} : e.pool.now.nanos ≤ now.nanos →
      Step c e [] { e with pool := e.pool.moveTo now }
  | world (w : ω) : Step c e [] { e with pool := { e.pool with world := w } }

/-- What is seen of an engine, the first first, with the engine it leads to. -/
inductive Run (c : Craft ω ρ) (e₀ : Engine ω ρ L) : List Event → Engine ω ρ L → Prop
  | start : Run c e₀ [] e₀
  | next {τ evs : List Event} {e e' : Engine ω ρ L} :
      Run c e₀ τ e → Step c e evs e' → Run c e₀ (τ ++ evs) e'

end

end Engine

end Prewarm
