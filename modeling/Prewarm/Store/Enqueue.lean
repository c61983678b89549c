import Prewarm.Store
import Prewarm.WorkQueue

/-!
# From changes to work

An observer puts keys on a queue. The rule for parents takes the key of every object that is added
or updated; an object that is gone is noticed when its key is worked on next. The rule for children
takes the key of the owner that manages the object, also when the object is gone, so that a child
that vanishes is made again.
-/

namespace Prewarm

/-- Which key a change puts on the queue. -/
inductive EnqueueRule where
  /-- The key of the object. -/
  | itself
  /-- The key of the owner of a kind that manages the object. -/
  | manager (kind : String)
  deriving DecidableEq, Repr

namespace EnqueueRule

/-- The first owner of a kind that manages an object. -/
def managerOf? (kind : String) (m : Metadata) : Option OwnerReference :=
  (m.owners.getD []).find? (fun r => r.controller == some true && r.kind == kind)

/-- The key that a change puts on the queue. -/
def key? {α : Type} [Resource α] : EnqueueRule → Note α → Option Key
  | itself, .added a | itself, .updated _ a => some (keyOf a)
  | itself, .deleted _ => none
  | manager kind, n =>
    let m := metadata n.object
    (managerOf? kind m).map (fun r => Key.ofParts (m.ns.getD "") r.name)

/-- The keys that changes put on the queue, in their order. -/
def keys {α : Type} [Resource α] (rule : EnqueueRule) (notes : List (Note α)) : List Key :=
  notes.filterMap rule.key?

end EnqueueRule

/-- Adds keys one after the other, each after the delay of the limiter. The keys after one whose
delay cannot be kept are not added. -/
def WorkQueue.addAllRateLimited {L : Type} [Limiter L] (q : WorkQueue L) (now : Instant) :
    List Key → Except DelayFault Unit × WorkQueue L
  | [] => (.ok (), q)
  | k :: ks =>
    match q.addRateLimited k now with
    | (.ok (), q) => q.addAllRateLimited now ks
    | (.error e, q) => (.error e, q)

end Prewarm
