/-!
# Wake-ups

Those who wait for a key sleep until they are woken. A call for one of them goes to the one asleep
the longest, or is kept as a permit for the next that would fall asleep; permits do not add up. A
call for all goes to those asleep at that moment and leaves no permit. One who was called alone and
leaves without running hands the call on.
-/

namespace Prewarm

/-- The name of one who waits for keys. -/
abbrev GetterId := Nat

/-- Whether one was called alone or with all others. -/
inductive Call where
  | one
  | all
  deriving DecidableEq, Repr

/-- Those who wait for keys. -/
structure Wakeups where
  /-- Whether a call for one is kept for the next that would fall asleep. -/
  permit : Bool := false
  /-- Those asleep, the longest first. -/
  asleep : List GetterId := []
  /-- Those who were called and have not run since, the first called first. -/
  woken : List (GetterId × Call) := []
  deriving DecidableEq, Repr

namespace Wakeups

/-- A call for one. -/
def callOne (w : Wakeups) : Wakeups :=
  match w.asleep with
  | [] => { w with permit := true }
  | g :: gs => { w with asleep := gs, woken := w.woken ++ [(g, .one)] }

/-- A call for all who are asleep. -/
def callAll (w : Wakeups) : Wakeups :=
  { w with asleep := [], woken := w.woken ++ w.asleep.map (fun g => (g, .all)) }

/-- The wake-ups without one who runs. The one uses up its call and a permit. -/
def run (w : Wakeups) (g : GetterId) : Wakeups where
  permit := false
  asleep := w.asleep.filter (· ≠ g)
  woken := w.woken.filter (·.1 ≠ g)

/-- The wake-ups with one more asleep. -/
def sleep (w : Wakeups) (g : GetterId) : Wakeups := { w with asleep := w.asleep ++ [g] }

/-- The wake-ups without one who leaves. A call for it alone goes to another. -/
def leave (w : Wakeups) (g : GetterId) : Wakeups :=
  let rest : Wakeups :=
    { w with asleep := w.asleep.filter (· ≠ g), woken := w.woken.filter (·.1 ≠ g) }
  if (g, .one) ∈ w.woken then rest.callOne else rest

end Wakeups

end Prewarm
