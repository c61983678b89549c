import Prewarm.Reconcile
import Prewarm.WorkQueue

/-!
# Handing a key back

What one who has worked on a key does with it. After success, and after a failure that no further
work can mend, the key is forgotten; after any other failure it is added again after a delay. In
each case the work is done, so that a change during the work comes to the queue.
-/

namespace Prewarm

/-- How work on a key has ended. -/
inductive Outcome where
  | success
  | failure (d : Reconcile.Disposition)
  /-- The work broke off. -/
  | crash
  deriving DecidableEq, Repr

/-- The outcome of work that ended with a result. -/
def Outcome.ofResult : Except Reconcile.Failure Unit → Outcome
  | .ok () => .success
  | .error e => .failure e.disposition

/-- Whether a key is worked on again after an outcome, even if nothing changes. -/
def Outcome.retries : Outcome → Bool
  | success | failure .drop => false
  | failure .requeue | crash => true

/-- Hands a key back after work on it. -/
def WorkQueue.handBack {L : Type} [Limiter L] (q : WorkQueue L) (k : Key) (o : Outcome)
    (now : Instant) : Except DelayFault Unit × WorkQueue L :=
  if o.retries then (q.done k).addRateLimited k now
  else (.ok (), (q.forget k).done k)

end Prewarm
