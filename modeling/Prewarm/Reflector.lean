import Prewarm.Cluster.Error
import Prewarm.Store
import Prewarm.Time

/-!
# Reflectors

A reflector keeps a store like the objects of a kind in the cluster: it lists them, and from the
version of the listing on it watches for changes. A watch that ends is opened again from the last
version seen; one that breaks, and the end of the resync period, lead to a new listing. A listing
that fails is tried again after a rest that doubles each time.

A reflector is a state and a step: what it waits for is a phase, and each thing that can happen is
an input. So nothing here says who answers, nor when.
-/

namespace Prewarm

/-- A change that a watch tells of. -/
inductive Change (α : Type) where
  | added (a : α)
  | modified (a : α)
  | deleted (a : α)
  /-- There are no changes up to a version beyond those told of. -/
  | bookmark (version : String)
  deriving DecidableEq

/-- The version a change brings, if it says. -/
def Change.version? {α : Type} [Resource α] : Change α → Option String
  | added a | modified a | deleted a => (metadata a).resourceVersion
  | bookmark v => some v

namespace Reflector

/-- What a reflector waits for. -/
inductive Phase where
  /-- A listing. -/
  | listing
  /-- The next try of a listing that failed. -/
  | resting (wake : Instant)
  /-- The opening of a watch. -/
  | opening (deadline : Instant)
  /-- Changes. `heard` says whether the watch has told of any. -/
  | watching (deadline : Instant) (heard : Bool)
  /-- The next watch after one that told of nothing. -/
  | pausing (deadline wake : Instant)
  /-- Nothing any more: it was told to stop. -/
  | stopped
  /-- Nothing any more: the clock cannot show the end of its resync period, or one who is told of
  the changes of its store broke off. -/
  | broken
  deriving DecidableEq, Repr

/-- What can happen to a reflector. -/
inductive Input (α : Type) where
  /-- The result of a listing: objects and a version. -/
  | listed (r : Except ClusterError (List α × String))
  /-- The result of opening a watch. -/
  | opened (r : Except ClusterError Unit)
  | changed (c : Change α)
  /-- The watch broke. -/
  | failed (e : ClusterError)
  /-- The watch has ended. -/
  | ended
  /-- An instant was reached. -/
  | tick
  /-- It is told to stop. -/
  | stop

/-- The first rest after a listing that failed. -/
def firstRest : Duration := .ofMillis 800

/-- The longest rest after a listing that failed. -/
def longestRest : Duration := .ofSeconds 30

/-- The pause after a watch that told of nothing. -/
def pause : Duration := .ofSeconds 1

end Reflector

open Reflector in
/-- A reflector with the store it keeps. -/
structure Reflector (α : Type) where
  /-- The time between two listings. -/
  resync : Duration
  store : Store α := {}
  /-- The last version seen. -/
  version : String := ""
  phase : Phase := .listing
  /-- The rest after the next listing that fails. -/
  rest : Duration := firstRest

namespace Reflector

variable {α : Type} [Resource α]

/-- A later instant. -/
def later (t : Instant) (d : Duration) : Instant := ⟨t.nanos + d.nanos⟩

/-- Takes a whole listing over and goes on to watch. -/
def takeListing (r : Reflector α) (now : Instant) (as : List α) (version : String) :
    Reflector α × List (Note α) :=
  let (store, notes) := r.store.replace as
  let phase := (now.add? r.resync).elim .broken .opening
  ({ r with store, version, phase, rest := firstRest }, notes)

/-- Takes a change over. -/
def takeChange (r : Reflector α) (c : Change α) : Reflector α × List (Note α) :=
  let (store, notes) := match c with
    | .added a | .modified a => r.store.upsert a
    | .deleted a => r.store.remove a
    | .bookmark _ => (r.store, [])
  ({ r with store, version := c.version?.getD r.version }, notes)

/-- Rests after a listing that failed. -/
def restAfterFailure (r : Reflector α) (now : Instant) : Reflector α :=
  { r with phase := .resting (later now r.rest), rest := r.rest.double.shorter longestRest }

/-- What the end of a watch leads to: a pause if it told of nothing, or else the next watch. -/
def afterWatch (now deadline : Instant) (heard : Bool) : Phase :=
  if heard then .opening deadline else .pausing deadline (later now pause)

/-- What an instant that is reached leads to. -/
def afterTick (now : Instant) : Phase → Phase
  | .resting wake => if wake.reached now then .listing else .resting wake
  | .opening deadline => if deadline.reached now then .listing else .opening deadline
  | .watching deadline heard =>
    if deadline.reached now then .listing else .watching deadline heard
  | .pausing deadline wake =>
    if deadline.reached now then .listing
    else if wake.reached now then .opening deadline
    else .pausing deadline wake
  | p => p

/-- Whether nothing happens to a reflector any more. -/
def Phase.isFinal : Phase → Bool
  | stopped | broken => true
  | _ => false

/-- What happens to a reflector, and the changes of its store. What it does not wait for has no
effect. -/
def step (r : Reflector α) (now : Instant) : Input α → Reflector α × List (Note α)
  | .listed res =>
    match r.phase, res with
    | .listing, .ok (as, version) => r.takeListing now as version
    | .listing, .error _ => (r.restAfterFailure now, [])
    | _, _ => (r, [])
  | .opened res =>
    match r.phase, res with
    | .opening deadline, .ok () => ({ r with phase := .watching deadline false }, [])
    | .opening _, .error _ => ({ r with phase := .listing }, [])
    | _, _ => (r, [])
  | .changed c =>
    match r.phase with
    | .watching deadline _ => { r with phase := .watching deadline true }.takeChange c
    | _ => (r, [])
  | .failed _ =>
    match r.phase with
    | .watching .. => ({ r with phase := .listing }, [])
    | _ => (r, [])
  | .ended =>
    match r.phase with
    | .watching deadline heard => ({ r with phase := afterWatch now deadline heard }, [])
    | _ => (r, [])
  | .tick => ({ r with phase := afterTick now r.phase }, [])
  | .stop => (if r.phase.isFinal then r else { r with phase := .stopped }, [])

omit [Resource α] in
@[simp] theorem afterTick_eq_broken_iff {now : Instant} {p : Phase} :
    afterTick now p = .broken ↔ p = .broken := by
  cases p with
  | listing | stopped | broken => exact Iff.rfl
  | resting | opening | watching =>
    simp only [afterTick]
    split <;> simp
  | pausing =>
    simp only [afterTick]
    split
    · simp
    · split <;> simp

/-- A step takes a listing over or a change, or else leaves the store as it is. Only a listing can
make a reflector break off by itself. -/
theorem step_cases (r : Reflector α) (now : Instant) (i : Input α) :
    (∃ as version, i = .listed (.ok (as, version)) ∧ r.phase = .listing ∧
      r.step now i = r.takeListing now as version) ∨
    (∃ c deadline heard, i = .changed c ∧ r.phase = .watching deadline heard ∧
      r.step now i = { r with phase := .watching deadline true }.takeChange c) ∨
    ∃ p d, r.step now i = ({ r with phase := p, rest := d }, []) ∧
      (p = .broken ↔ r.phase = .broken) := by
  have hsame : ∃ p d, (r, ([] : List (Note α))) = ({ r with phase := p, rest := d }, []) ∧
      (p = .broken ↔ r.phase = .broken) := ⟨r.phase, r.rest, rfl, Iff.rfl⟩
  cases i with
  | listed res =>
    unfold step
    dsimp only
    split
    · next as version hphase => exact .inl ⟨as, version, rfl, hphase, rfl⟩
    · next hphase => exact .inr (.inr ⟨_, _, rfl, by simp [hphase]⟩)
    · exact .inr (.inr hsame)
  | opened res =>
    unfold step
    dsimp only
    split
    · next hphase => exact .inr (.inr ⟨_, r.rest, rfl, by simp [hphase]⟩)
    · next hphase => exact .inr (.inr ⟨_, r.rest, rfl, by simp [hphase]⟩)
    · exact .inr (.inr hsame)
  | changed c =>
    unfold step
    dsimp only
    split
    · next deadline heard hphase => exact .inr (.inl ⟨c, deadline, heard, rfl, hphase, rfl⟩)
    · exact .inr (.inr hsame)
  | failed e =>
    unfold step
    dsimp only
    split
    · next hphase => exact .inr (.inr ⟨_, r.rest, rfl, by simp [hphase]⟩)
    · exact .inr (.inr hsame)
  | ended =>
    unfold step
    dsimp only
    split
    · next deadline heard hphase =>
      refine .inr (.inr ⟨_, r.rest, rfl, ?_⟩)
      unfold afterWatch
      split <;> simp [hphase]
    · exact .inr (.inr hsame)
  | tick => exact .inr (.inr ⟨_, r.rest, rfl, afterTick_eq_broken_iff⟩)
  | stop =>
    unfold step
    dsimp only
    split
    · exact .inr (.inr hsame)
    · next hfinal =>
      refine .inr (.inr ⟨_, r.rest, rfl, iff_of_false (by simp) fun h => hfinal ?_⟩)
      rw [h]
      rfl

/-- Nothing happens any more to a reflector that has broken off. -/
theorem step_of_broken {r : Reflector α} (h : r.phase = .broken) (now : Instant) (i : Input α) :
    (r.step now i).1 = r := by
  obtain ⟨resync, store, version, phase, rest⟩ := r
  cases show phase = .broken from h
  cases i with
  | listed | opened | changed | failed | ended | tick | stop => rfl

/-- The reflector when one who is told of the changes of its store has broken off. A listing whose
changes were not all told of does not count as held. -/
def breakOff (r before : Reflector α) : Reflector α :=
  { r with phase := .broken, store := { r.store with synced := before.store.synced } }

/-- What a reflector asks the cluster for. -/
inductive Request where
  | list
  | watch (version : String)
  deriving DecidableEq, Repr

/-- What a reflector asks for now. -/
def request? (r : Reflector α) : Option Request :=
  match r.phase with
  | .listing => some .list
  | .opening _ => some (.watch r.version)
  | _ => none

/-- The instants a reflector waits for. -/
def alarms (r : Reflector α) : List Instant :=
  match r.phase with
  | .resting wake => [wake]
  | .opening deadline | .watching deadline _ => [deadline]
  | .pausing deadline wake => [deadline, wake]
  | _ => []

end Reflector

end Prewarm
