import Prewarm.Key
import Prewarm.Time.Seconds

/-!
# Rate limits

How long a key waits before it stands on the queue again. A `Backoff` doubles the wait of a key
each time the key is added, until the key is forgotten. A `Bucket` bounds how many keys are added in
a second, whichever they are: it holds tokens that come back at a steady rate, and what it lacks for
one key is how long that key waits. A `RateLimiter` is one of the two or the slowest of several. A
queue can have any `Limiter`, of which a `RateLimiter` is one.
-/

namespace Prewarm

/-- What decides how long a key waits. -/
class Limiter (L : Type) where
  /-- The wait of a key that is added now, none if there is no span of time for it. -/
  delay : Key → Instant → L → Option Duration × L
  /-- Counts the additions of a key from the start again. -/
  forget : Key → L → L
  /-- How often a key was added since it was last forgotten. -/
  count : Key → L → Nat

/-- Waits that double with each addition of a key, up to the longest. -/
structure Backoff where
  base : Duration
  max : Duration
  /-- How often each key was added since it was last forgotten. -/
  counts : Table Key Nat

namespace Backoff

/-- The most additions that are counted for a key. -/
def countLimit : Nat := Nat.pow 2 32 - 1

/-- The additions of a key since it was last forgotten. -/
def count (b : Backoff) (k : Key) : Nat := (b.counts.get? k).getD 0

/-- The wait of a key that was added `n` times before. It is computed in a word of 128 bits, whose
greatest number stands for all that does not fit it. A wait that is not longer than the longest is
kept in a word of 64 bits of nanoseconds. -/
def wait (b : Backoff) (n : Nat) : Duration :=
  let nanos := min (b.base.nanos * Nat.pow 2 (min n 100)) (Nat.pow 2 128 - 1)
  if b.max.nanos < nanos then b.max else ⟨nanos % Nat.pow 2 64⟩

/-- The wait of a key that is added now. -/
def delay (b : Backoff) (k : Key) : Duration × Backoff :=
  (b.wait (b.count k), { b with counts := b.counts.insert k (min (b.count k + 1) countLimit) })

/-- Counts the additions of a key from the start again. -/
def forget (b : Backoff) (k : Key) : Backoff := { b with counts := b.counts.erase k }

end Backoff

/-- Tokens that come back at a steady rate, one of which each addition takes. -/
structure Bucket where
  /-- The tokens that come back in a second. -/
  rate : Float
  /-- The most tokens there are at a time. -/
  burst : Float
  /-- The tokens there were at `last`, below zero if some were taken ahead of time. -/
  tokens : Float
  last : Instant

namespace Bucket

/-- A full bucket. -/
def full (rate : Float) (burst : Nat) (now : Instant) : Bucket :=
  ⟨rate, Float.ofNat burst, Float.ofNat burst, now⟩

/-- The lesser of two floats, or the one that is a number. -/
def lesser (a b : Float) : Float := if b < a || a.isNaN then b else a

/-- Takes a token, perhaps one that is not there yet. The wait is the time until it is, which is no
span of time if the rate is not positive or the wait too long. -/
def delay (b : Bucket) (now : Instant) : Option Duration × Bucket :=
  let back := (now.since b.last).toSeconds * b.rate
  let tokens := lesser (b.tokens + back) b.burst - 1
  let wait := if tokens ≥ 0 then some .zero else Duration.ofSeconds? (-tokens / b.rate)
  (wait, { b with tokens := tokens, last := now })

end Bucket

/-- Waits that double, tokens, or the slowest of several limiters. -/
inductive RateLimiter where
  | backoff (b : Backoff)
  | bucket (b : Bucket)
  /-- Asks each of its limiters and takes the longest wait. -/
  | slowest (limiters : List RateLimiter)

namespace RateLimiter

mutual
/-- The wait of a key that is added now, none if a limiter has no span of time for it. What the
limiters have counted until then stays counted. -/
def delay (k : Key) (now : Instant) : RateLimiter → Option Duration × RateLimiter
  | backoff b =>
    let (d, b) := b.delay k
    (some d, backoff b)
  | bucket b =>
    let (d, b) := b.delay now
    (d, bucket b)
  | slowest ls =>
    let (d, ls) := delays k now ls
    (d, slowest ls)

/-- The longest wait that limiters have for a key. The limiters after one without a span of time
are not asked. -/
def delays (k : Key) (now : Instant) : List RateLimiter → Option Duration × List RateLimiter
  | [] => (some .zero, [])
  | l :: ls =>
    match delay k now l with
    | (none, l) => (none, l :: ls)
    | (some d, l) =>
      let (e, ls) := delays k now ls
      (e.map d.longer, l :: ls)
end

mutual
/-- Counts the additions of a key from the start again. -/
def forget (k : Key) : RateLimiter → RateLimiter
  | backoff b => backoff (b.forget k)
  | bucket b => bucket b
  | slowest ls => slowest (forgets k ls)

/-- Counts the additions of a key from the start again, in each limiter. -/
def forgets (k : Key) : List RateLimiter → List RateLimiter
  | [] => []
  | l :: ls => forget k l :: forgets k ls
end

mutual
/-- How often a key was added since it was last forgotten. A bucket does not count. -/
def count (k : Key) : RateLimiter → Nat
  | backoff b => b.count k
  | bucket _ => 0
  | slowest ls => counts k ls

/-- The most additions of a key that one of the limiters has counted. -/
def counts (k : Key) : List RateLimiter → Nat
  | [] => 0
  | l :: ls => max (count k l) (counts k ls)
end

instance : Limiter RateLimiter := ⟨delay, forget, count⟩

/-- A doubling wait from a shortest to a longest one. -/
def exponential (base max : Duration) : RateLimiter := backoff ⟨base, max, .empty⟩

/-- The limiter of the controller's queue: from 5 milliseconds to 1000 seconds for one key, and 10
keys a second, 100 at a time, over all. -/
def standard (now : Instant) : RateLimiter :=
  slowest [exponential (.ofMillis 5) (.ofSeconds 1000), bucket (.full 10 100 now)]

end RateLimiter

end Prewarm
