import Prewarm.Key
import Prewarm.Time

/-!
# Expected children

A child that was created shows in the local copy of the children only after a while. Until then
there is an expectation: the key of the parent, and the version the child was made for. Work on the
parent that finds no child and an expectation for its version does not create a second one. An
expectation ends when the child is seen, when another version is asked for, or after its lifetime.
-/

namespace Prewarm

/-- A child that was created and not yet seen. -/
structure Expected where
  version : String
  deadline : Instant
  deriving DecidableEq, Repr

/-- The children that were created and not yet seen, at most one for each key of a parent. -/
structure Expectations where
  /-- How long a child is expected. -/
  lifetime : Duration
  pending : Table Key Expected := .empty

namespace Expectations

/-- How long the controller expects a child. -/
def standardLifetime : Duration := .ofSeconds (5 * 60)

/-- No expectations, with the lifetime of the controller. -/
def standard : Expectations := { lifetime := standardLifetime }

/-- A child was created for a version of its parent. -/
def expect (e : Expectations) (k : Key) (version : String) (now : Instant) : Expectations :=
  { e with pending := e.pending.insert k ⟨version, ⟨now.nanos + e.lifetime.nanos⟩⟩ }

/-- Whether a child for a version of its parent is expected. An expectation that is for another
version or has had its time is dropped. -/
def isPending (e : Expectations) (k : Key) (version : String) (now : Instant) :
    Bool × Expectations :=
  match e.pending.get? k with
  | some p =>
    if p.version = version ∧ now.nanos < p.deadline.nanos then (true, e)
    else (false, { e with pending := e.pending.erase k })
  | none => (false, e)

/-- A child of a parent was seen, or the parent is gone. -/
def observed (e : Expectations) (k : Key) : Expectations :=
  { e with pending := e.pending.erase k }

theorem isPending_eq_true_iff {e : Expectations} {k : Key} {version : String} {now : Instant} :
    (e.isPending k version now).1 = true ↔
      ∃ p, e.pending.get? k = some p ∧ p.version = version ∧ now.nanos < p.deadline.nanos := by
  unfold isPending
  split
  · next p hp =>
    split
    · next h => simp [hp, h]
    · next h => simpa [hp] using h
  · next hp => simp [hp]

@[simp] theorem lifetime_isPending (e : Expectations) (k : Key) (version : String) (now : Instant) :
    (e.isPending k version now).2.lifetime = e.lifetime := by
  unfold isPending
  split
  · split <;> rfl
  · rfl

/-- Whether a child of a parent is expected does not matter to the other parents. -/
theorem get?_isPending (e : Expectations) {k k' : Key} (version : String) (now : Instant)
    (h : k' ≠ k) : (e.isPending k version now).2.pending.get? k' = e.pending.get? k' := by
  unfold isPending
  split
  · split
    · rfl
    · exact Table.get?_erase_of_ne h ..
  · rfl

/-- An expectation that is not waited for is dropped. -/
theorem get?_isPending_self (e : Expectations) (k : Key) (version : String) (now : Instant) :
    (e.isPending k version now).2.pending.get? k =
      if (e.isPending k version now).1 then e.pending.get? k else none := by
  unfold isPending
  split
  · split
    · rfl
    · exact Table.get?_erase_self ..
  · next h => exact h

/-- A child is not expected of a parent for which nothing is expected. -/
theorem isPending_of_none {e : Expectations} {k : Key} {version : String} {now : Instant}
    (h : e.pending.get? k = none) : e.isPending k version now = (false, e) := by
  unfold isPending
  rw [h]

/-- Whether a child of a parent is expected is a matter of what is expected for this parent. -/
theorem isPending_congr {e e' : Expectations} {k : Key} (version : String) (now : Instant)
    (h : e.pending.get? k = e'.pending.get? k) :
    (e.isPending k version now).1 = (e'.isPending k version now).1 := by
  rw [Bool.eq_iff_iff, isPending_eq_true_iff, isPending_eq_true_iff, h]

end Expectations

end Prewarm
