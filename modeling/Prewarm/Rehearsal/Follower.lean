import Prewarm.Reflector

/-!
# Rehearsing a reflector

A run of one reflector on a clock of its own, with listings and watches that follow a script.
-/

namespace Prewarm.Rehearsal

/-- Something that a scripted watch tells of, a number of milliseconds after what was before it. -/
structure Happening (α : Type) where
  after : Nat
  what : Except ClusterError (Change α)

/-- A scripted watch. One that does not close stays open in silence. -/
structure WatchScript (α : Type) where
  happenings : List (Happening α) := []
  closes : Bool := false

/-- The results of listings and watches, the next one first. The last listing repeats; without any
there are empty ones. Watches beyond the script stay open in silence. -/
structure SourceScript (α : Type) where
  lists : List (Except ClusterError (List α × String))
  watches : List (Except ClusterError (WatchScript α))

/-- What is seen of a reflector. -/
inductive Sight (α : Type) where
  | list
  | watch (version : String)
  | note (n : Note α)

/-- A reflector that follows a script. -/
structure Follower (α : Type) where
  now : Instant := .start
  reflector : Reflector α
  script : SourceScript α
  /-- The rest of the open watch. -/
  stream : WatchScript α := {}
  /-- When the open watch told of something last. -/
  heardAt : Instant := .start
  /-- What was seen, the last first. -/
  log : List (Instant × Sight α) := []

namespace Follower

variable {α : Type} [Resource α]

/-- Takes down what is seen. -/
def see (m : Follower α) (s : Sight α) : Follower α := { m with log := (m.now, s) :: m.log }

/-- Lets something happen to the reflector. -/
def feed (m : Follower α) (i : Reflector.Input α) : Follower α :=
  let (r, notes) := m.reflector.step m.now i
  notes.foldl (fun m n => m.see (.note n)) { m with reflector := r }

/-- The next listing, and the script after it. -/
def SourceScript.list (s : SourceScript α) :
    Except ClusterError (List α × String) × SourceScript α :=
  match s.lists with
  | [] => (.ok ([], ""), s)
  | [r] => (r, s)
  | r :: rs => (r, { s with lists := rs })

/-- The next watch, and the script after it. -/
def SourceScript.watch (s : SourceScript α) :
    Except ClusterError (WatchScript α) × SourceScript α :=
  match s.watches with
  | [] => (.ok {}, s)
  | r :: rs => (r, { s with watches := rs })

/-- When the open watch tells of the next thing. -/
def nextHappening? (m : Follower α) : Option Instant :=
  match m.reflector.phase, m.stream.happenings with
  | .watching .., h :: _ => some ⟨m.heardAt.nanos + (Duration.ofMillis h.after).nanos⟩
  | _, _ => none

/-- Lets the watch tell of the next thing that is due, or end. -/
def hear? (m : Follower α) : Option (Follower α) :=
  match m.reflector.phase, m.stream.happenings with
  | .watching .., h :: hs =>
    let due : Instant := ⟨m.heardAt.nanos + (Duration.ofMillis h.after).nanos⟩
    if due.reached m.now then
      let m := { m with stream := { m.stream with happenings := hs }, heardAt := due }
      some (m.feed (match h.what with
        | .ok c => .changed c
        | .error e => .failed e))
    else none
  | .watching .., [] => if m.stream.closes then some (m.feed .ended) else none
  | _, _ => none

/-- Lets one thing happen that can happen now. -/
def step? (m : Follower α) : Option (Follower α) :=
  match m.reflector.request? with
  | some .list =>
    let (r, script) := SourceScript.list m.script
    some ({ m.see .list with script := script }.feed (.listed r))
  | some (.watch version) =>
    let (r, script) := SourceScript.watch m.script
    let m := { m.see (.watch version) with script := script, heardAt := m.now }
    match r with
    | .ok stream => some ({ m with stream := stream }.feed (.opened (.ok ())))
    | .error e => some (m.feed (.opened (.error e)))
  | none => m.hear?

/-- Lets things happen until nothing can, or `fuel` have. -/
def settle : Nat → Follower α → Follower α
  | 0, m => m
  | fuel + 1, m =>
    match m.step? with
    | none => m
    | some m => settle fuel m

/-- The next millisecond in which something happens. -/
def nextAlarm? (m : Follower α) : Option Nat :=
  ((m.reflector.alarms ++ m.nextHappening?.toList).map Instant.ceilMillis).min?

/-- Lets time pass until a millisecond is reached, with at most `fuel` alarms on the way. -/
def passTime (effort limit : Nat) : Nat → Follower α → Follower α
  | 0, m => { m with now := .ofMillis limit }
  | fuel + 1, m =>
    match m.nextAlarm? with
    | some ms =>
      if ms ≤ limit then
        passTime effort limit fuel (settle effort ({ m with now := .ofMillis ms }.feed .tick))
      else { m with now := .ofMillis limit }
    | none => { m with now := .ofMillis limit }

/-- Runs a reflector for a number of milliseconds. -/
def run (m : Follower α) (millis : Nat) : Follower α :=
  passTime 1_000_000 millis (millis + 1) (settle 1_000_000 m)

end Follower

end Prewarm.Rehearsal
