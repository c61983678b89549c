/-!
# Time

A `Duration` is a span of time and an `Instant` a reading of the clock, both in whole nanoseconds.
A reading cannot lie arbitrarily far ahead: `Instant.add?` fails when the seconds of the sum no
longer fit a signed word of 64 bits. Timers fire on the millisecond, so what is due at an instant
is looked at on the first millisecond that is not before it (`Instant.ceilMillis`).

Powers are written with `Nat.pow` here and elsewhere, since `^` is another function where Mathlib is
imported.
-/

namespace Prewarm

/-- A span of time, in nanoseconds. -/
structure Duration where
  nanos : Nat
  deriving DecidableEq, Repr, Inhabited

namespace Duration

/-- No time at all. -/
def zero : Duration := ⟨0⟩

/-- A number of seconds and, on top of them, of nanoseconds. -/
def ofParts (seconds nanos : Nat) : Duration := ⟨seconds * 1_000_000_000 + nanos⟩

/-- A number of whole seconds. -/
def ofSeconds (seconds : Nat) : Duration := ofParts seconds 0

/-- A number of whole milliseconds. -/
def ofMillis (millis : Nat) : Duration := ⟨millis * 1_000_000⟩

/-- The whole seconds of a span. -/
def seconds (d : Duration) : Nat := d.nanos / 1_000_000_000

/-- The nanoseconds of a span beyond its whole seconds. -/
def subsecond (d : Duration) : Nat := d.nanos % 1_000_000_000

/-- The longer of two spans. -/
def longer (a b : Duration) : Duration := if a.nanos ≤ b.nanos then b else a

/-- The shorter of two spans. -/
def shorter (a b : Duration) : Duration := if a.nanos ≤ b.nanos then a else b

/-- A span twice as long. -/
def double (d : Duration) : Duration := ⟨2 * d.nanos⟩

/-- The shorter of two spans is not longer than the first. -/
theorem shorter_le_left (a b : Duration) : (a.shorter b).nanos ≤ a.nanos := by
  unfold shorter
  split <;> omega

/-- The shorter of two spans is not longer than the second. -/
theorem shorter_le_right (a b : Duration) : (a.shorter b).nanos ≤ b.nanos := by
  unfold shorter
  split <;> omega

end Duration

/-- A reading of the clock, in nanoseconds since the run began. -/
structure Instant where
  nanos : Nat
  deriving DecidableEq, Repr, Inhabited

namespace Instant

/-- The reading when the run begins. -/
def start : Instant := ⟨0⟩

/-- The reading a number of milliseconds into the run. -/
def ofMillis (millis : Nat) : Instant := ⟨millis * 1_000_000⟩

/-- The first second the clock cannot show. The clock counts seconds in a signed word of 64 bits
and has been counting for at least one when the run begins. -/
def horizon : Nat := Nat.pow 2 63 - 1

/-- The instant a span after another, if the clock can show it. -/
def add? (t : Instant) (d : Duration) : Option Instant :=
  if (t.nanos + d.nanos) / 1_000_000_000 < horizon then some ⟨t.nanos + d.nanos⟩ else none

/-- The span from an earlier reading to this one, none if it is not earlier. -/
def since (t earlier : Instant) : Duration := ⟨t.nanos - earlier.nanos⟩

/-- Whether an instant is reached at the reading `now`. -/
def reached (t now : Instant) : Bool := decide (t.nanos ≤ now.nanos)

/-- The earlier of two instants. -/
def earlier (a b : Instant) : Instant := if a.nanos ≤ b.nanos then a else b

/-- The first millisecond that is not before an instant. -/
def ceilMillis (t : Instant) : Nat := (t.nanos + (1_000_000 - 1)) / 1_000_000

/-- The millisecond an instant lies in. -/
def millis (t : Instant) : Nat := t.nanos / 1_000_000

/-- The clock cannot show an instant that is too many seconds ahead. -/
theorem add?_ofSeconds_eq_none_iff {t : Instant} {n : Nat} :
    t.add? (.ofSeconds n) = none ↔ horizon ≤ t.nanos / 1_000_000_000 + n := by
  have hsum : (t.nanos + (Duration.ofSeconds n).nanos) / 1_000_000_000 =
      t.nanos / 1_000_000_000 + n := by
    simp only [Duration.ofSeconds, Duration.ofParts]
    omega
  unfold add?
  rw [hsum]
  split
  · next h => exact iff_of_false (Option.some_ne_none _) (Nat.not_le.2 h)
  · next h => exact iff_of_true rfl (Nat.not_lt.1 h)

/-- A timer never fires before its instant. -/
theorem le_ceilMillis (t : Instant) : t.nanos ≤ (ofMillis t.ceilMillis).nanos := by
  simp only [ofMillis, ceilMillis]
  omega

/-- A timer fires on the first millisecond on which its instant is reached. -/
theorem ceilMillis_le_iff (t : Instant) (m : Nat) :
    t.ceilMillis ≤ m ↔ t.nanos ≤ (ofMillis m).nanos := by
  simp only [ofMillis, ceilMillis]
  omega

/-- A later instant is in no earlier millisecond. -/
theorem ceilMillis_mono {t u : Instant} (h : t.nanos ≤ u.nanos) : t.ceilMillis ≤ u.ceilMillis :=
  (ceilMillis_le_iff t _).2 (Nat.le_trans h u.le_ceilMillis)

/-- A millisecond that is not after an instant is not after the one its timer fires on. -/
theorem le_ceilMillis_of_le {t : Instant} {m : Nat} (h : (ofMillis m).nanos ≤ t.nanos) :
    m ≤ t.ceilMillis := by
  have := t.le_ceilMillis
  simp only [ofMillis] at h this
  omega

end Instant

end Prewarm
