import Prewarm.Time

/-!
# Waiting for stores

Before work begins, every store has to have held a whole listing. The wait looks at the stores when
it begins and then every tenth of a second, and ends early when its time is up or it is cancelled.
-/

namespace Prewarm

/-- A wait for stores: when it looks at them next, and when its time is up. -/
structure CacheSync where
  next : Instant
  deadline : Instant
  deriving DecidableEq, Repr

namespace CacheSync

/-- The time between two looks at the stores. -/
def interval : Duration := .ofMillis 100

/-- A wait that begins, unless the clock cannot show its end. -/
def begin? (now : Instant) (timeout : Duration) : Option CacheSync :=
  (now.add? timeout).map (fun deadline => ⟨now, deadline⟩)

/-- What an instant comes to in a wait. -/
inductive Verdict where
  /-- Every store has held a whole listing. -/
  | synced
  /-- The time is up. -/
  | late
  | waiting (w : CacheSync)
  deriving DecidableEq, Repr

/-- Looks at the stores if it is time to. `synced` says whether all of them have held a whole
listing. -/
def look (w : CacheSync) (now : Instant) (synced : Bool) : Verdict :=
  if w.next.reached now ∧ synced then .synced
  else if w.deadline.reached now then .late
  else if w.next.reached now then .waiting { w with next := ⟨w.next.nanos + interval.nanos⟩ }
  else .waiting w

/-- The millisecond in which the wait goes on. -/
def alarm (w : CacheSync) : Nat := min w.next.ceilMillis w.deadline.ceilMillis

/-- How a wait ended, and in which millisecond after it began. -/
structure Outcome where
  synced : Bool
  millis : Nat
  deriving DecidableEq, Repr

/-- Follows a wait from a millisecond on, for at most `n` looks. `synced t` says whether all stores
have held a whole listing in millisecond `t`. -/
def follow (synced : Nat → Bool) (cancel : Option Nat) : Nat → Nat → CacheSync → Outcome
  | 0, ms, _ => ⟨false, ms⟩
  | n + 1, ms, w =>
    match w.look (.ofMillis ms) (synced ms) with
    | .synced => ⟨true, ms⟩
    | .late => ⟨false, ms⟩
    | .waiting w =>
      match cancel with
      | none => follow synced cancel n w.alarm w
      | some c => if c ≤ w.alarm then ⟨false, c⟩ else follow synced cancel n w.alarm w

/-- How a wait ends that has a time limit in milliseconds and may be cancelled. -/
def wait (synced : Nat → Bool) (timeout : Nat) (cancel : Option Nat) : Outcome :=
  (begin? .start (.ofMillis timeout)).elim ⟨false, 0⟩ fun w =>
    follow synced cancel (timeout / 100 + 2) 0 w

end CacheSync

end Prewarm
