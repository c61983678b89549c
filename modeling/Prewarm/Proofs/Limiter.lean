import Prewarm.RateLimit

/-!
# Limiters that can be relied on

A limiter is asked for delays and told to forget keys, in any order; `Becomes` is what it can become
by that. `NeverFails` and `ShownUntil` say of all it can become that it has a delay for each key,
and that the clock can show the end of it; `NeverZero`, that no delay of it is no time at all.
Doubling waits never fail, and their ends are shown as long as the clock can show the longest of
them. The slowest of several limiters never has a delay of no time if one of them never has
(`neverZero_slowest`), so the controller's own limiter has none. What a limiter counts for a key
changes only when this key is added or forgotten (`count_delay_of_ne`, `count_forget`).
-/

namespace Prewarm

namespace Limiter

section
variable {L : Type} [Limiter L]

/-- What a limiter can become. -/
inductive Becomes (l : L) : L → Prop
  | refl : Becomes l l
  | delay {l' : L} (k : Key) (now : Instant) :
      Becomes l l' → Becomes l (Limiter.delay k now l').2
  | forget {l' : L} (k : Key) : Becomes l l' → Becomes l (Limiter.forget k l')

/-- Whatever a limiter was asked before, it has a delay for each key. -/
def NeverFails (l : L) : Prop :=
  ∀ l', Becomes l l' → ∀ k now, (Limiter.delay k now l').1 ≠ none

/-- Whatever a limiter was asked before, the clock can show the end of a delay that begins no later
than an instant. -/
def ShownUntil (limit : Instant) (l : L) : Prop :=
  ∀ l', Becomes l l' → ∀ k now d, now.nanos ≤ limit.nanos →
    (Limiter.delay k now l').1 = some d → (now.add? d).isSome

/-- Whatever a limiter was asked before, a delay that it has is some time. -/
def NeverZero (l : L) : Prop :=
  ∀ l', Becomes l l' → ∀ k now, (Limiter.delay k now l').1 ≠ some .zero

theorem Becomes.trans {l l' l'' : L} (h : Becomes l l') (h' : Becomes l' l'') : Becomes l l'' := by
  induction h' with
  | refl => exact h
  | delay k now _ ih => exact ih.delay k now
  | forget k _ ih => exact ih.forget k

theorem ShownUntil.mono {l : L} {limit limit' : Instant} (h : ShownUntil limit l)
    (hle : limit'.nanos ≤ limit.nanos) : ShownUntil limit' l :=
  fun l' hl' k now d hnow => h l' hl' k now d (Nat.le_trans hnow hle)

end

end Limiter

/-! ## Doubling waits -/

/-- No wait is longer than the longest. -/
theorem Backoff.wait_le_max (b : Backoff) (n : Nat) : (b.wait n).nanos ≤ b.max.nanos := by
  unfold wait
  dsimp only
  split
  · exact Nat.le_refl _
  · next h => exact Nat.le_trans (Nat.mod_le _ _) (Nat.not_lt.1 h)

/-- A wait is some time if the shortest and the longest are, and the longest fits a word. -/
theorem Backoff.wait_ne_zero {b : Backoff} (hbase : 0 < b.base.nanos) (hmax : 0 < b.max.nanos)
    (hword : b.max.nanos < Nat.pow 2 64) (n : Nat) : b.wait n ≠ .zero := by
  unfold wait Duration.zero
  dsimp only
  have hpos : 0 < min (b.base.nanos * Nat.pow 2 (min n 100)) (Nat.pow 2 128 - 1) :=
    Nat.lt_min.2 ⟨Nat.mul_pos hbase (Nat.pow_pos Nat.two_pos), by decide⟩
  split
  · intro h
    rw [h] at hmax
    exact absurd hmax (Nat.lt_irrefl 0)
  · next hle =>
    rw [Nat.mod_eq_of_lt (Nat.lt_of_le_of_lt (Nat.not_lt.1 hle) hword)]
    exact fun h => Nat.ne_of_gt hpos (congrArg Duration.nanos h)

/-- A span whose seconds fit a word of 64 bits has fewer nanoseconds than a hundred doublings make
of one. -/
theorem Duration.nanos_lt_of_seconds_lt {d : Duration} (h : d.seconds < Nat.pow 2 64) :
    d.nanos < Nat.pow 2 100 := by
  have hnanos : d.nanos < Nat.pow 2 64 * 1_000_000_000 :=
    (Nat.div_lt_iff_lt_mul (by decide)).1 h
  exact Nat.lt_trans hnanos (by decide)

/-- The doubled wait is longer than the longest if and only if it is found to be so: neither the
word in which it is computed nor the end of the doublings matters, since the longest wait is far
below both. -/
theorem Backoff.lt_clamped_iff {base n max : Nat} (h : max < Nat.pow 2 100) :
    max < min (base * Nat.pow 2 (min n 100)) (Nat.pow 2 128 - 1) ↔ max < base * Nat.pow 2 n := by
  have hword : max < Nat.pow 2 128 - 1 := Nat.lt_trans h (by decide)
  rw [Nat.lt_min, and_iff_left hword]
  rcases Nat.le_total n 100 with hn | hn
  · rw [Nat.min_eq_left hn]
  · rw [Nat.min_eq_right hn]
    rcases Nat.eq_zero_or_pos base with hzero | hpos
    · rw [hzero, Nat.zero_mul, Nat.zero_mul]
    · have hclamp : max < base * Nat.pow 2 100 :=
        Nat.lt_of_lt_of_le h (Nat.le_mul_of_pos_left _ hpos)
      have hmono : Nat.pow 2 100 ≤ Nat.pow 2 n := Nat.pow_le_pow_right Nat.two_pos hn
      exact iff_of_true hclamp (Nat.lt_of_lt_of_le hclamp (Nat.mul_le_mul_left base hmono))

/-- The wait after a number of additions: the longest one, or what a word has of the shortest one
doubled that often. -/
theorem Backoff.wait_cut {b : Backoff} (h : b.max.nanos < Nat.pow 2 100) (n : Nat) :
    b.wait n = if b.max.nanos < b.base.nanos * Nat.pow 2 n then b.max
      else ⟨b.base.nanos * Nat.pow 2 n % Nat.pow 2 64⟩ := by
  unfold wait
  dsimp only
  simp only [lt_clamped_iff h]
  split
  · rfl
  · next hle =>
    have hlt := Nat.lt_of_le_of_lt (Nat.not_lt.1 hle) h
    -- a product below `2 ^ 100` has not been clamped, unless it is zero
    have hprod : b.base.nanos * Nat.pow 2 (min n 100) = b.base.nanos * Nat.pow 2 n := by
      rcases Nat.eq_zero_or_pos b.base.nanos with hzero | hpos
      · rw [hzero, Nat.zero_mul, Nat.zero_mul]
      · have hpow : Nat.pow 2 n < Nat.pow 2 100 :=
          Nat.lt_of_le_of_lt (Nat.le_mul_of_pos_left _ hpos) hlt
        have hn : n < 100 := (Nat.pow_lt_pow_iff_right (by decide)).1 hpow
        rw [Nat.min_eq_left (Nat.le_of_lt hn)]
    rw [hprod, Nat.min_eq_left (Nat.le_of_lt (Nat.lt_trans hlt (by decide)))]

/-- The wait after a number of additions, if the longest wait fits a word. -/
theorem Backoff.wait_eq {b : Backoff} (h : b.max.nanos < Nat.pow 2 64) (n : Nat) :
    b.wait n = ⟨min (b.base.nanos * Nat.pow 2 n) b.max.nanos⟩ := by
  rw [wait_cut (Nat.lt_trans h (by decide))]
  split
  · next hlt => rw [Nat.min_eq_right (Nat.le_of_lt hlt)]
  · next hle =>
    have hle := Nat.not_lt.1 hle
    rw [Nat.mod_eq_of_lt (Nat.lt_of_le_of_lt hle h), Nat.min_eq_left hle]

/-- The wait does not depend on what is beyond the most additions that are counted. -/
@[simp] theorem Backoff.wait_min_countLimit (b : Backoff) (n : Nat) :
    b.wait (min n countLimit) = b.wait n := by
  unfold wait
  rw [Nat.min_assoc, Nat.min_eq_right (show 100 ≤ countLimit by decide)]

theorem Backoff.count_forget (b : Backoff) (k x : Key) :
    (b.forget k).count x = if x = k then 0 else b.count x := by
  unfold forget count
  dsimp only
  rw [Table.get?_erase]
  split <;> rfl

theorem Backoff.count_delay (b : Backoff) (k x : Key) :
    (b.delay k).2.count x = if x = k then min (b.count k + 1) countLimit else b.count x := by
  unfold delay count
  dsimp only
  rw [Table.get?_insert]
  split <;> rfl

namespace RateLimiter

/-- Waits that double from a shortest to a longest one go on to do so. -/
theorem becomes_exponential {base max : Duration} {l : RateLimiter}
    (h : Limiter.Becomes (exponential base max) l) :
    ∃ counts, l = .backoff ⟨base, max, counts⟩ := by
  induction h with
  | refl => exact ⟨_, rfl⟩
  | delay k now _ ih =>
    obtain ⟨counts, rfl⟩ := ih
    exact ⟨_, rfl⟩
  | forget k _ ih =>
    obtain ⟨counts, rfl⟩ := ih
    exact ⟨_, rfl⟩

theorem neverFails_exponential (base max : Duration) :
    Limiter.NeverFails (exponential base max) := by
  intro l hl k now h
  obtain ⟨counts, rfl⟩ := becomes_exponential hl
  cases h

/-- The clock can show the end of every wait if it can show that of the longest. -/
theorem shownUntil_exponential {base max : Duration} {limit : Instant}
    (h : (limit.nanos + max.nanos) / 1_000_000_000 < Instant.horizon) :
    Limiter.ShownUntil limit (exponential base max) := by
  intro l hl k now d hnow hd
  obtain ⟨counts, rfl⟩ := becomes_exponential hl
  cases hd
  have hmax := Backoff.wait_le_max ⟨base, max, counts⟩ (Backoff.count ⟨base, max, counts⟩ k)
  have hend : (now.nanos + ((Backoff.mk base max counts).wait
      (Backoff.count ⟨base, max, counts⟩ k)).nanos) / 1_000_000_000 < Instant.horizon :=
    Nat.lt_of_le_of_lt (Nat.div_le_div_right (Nat.add_le_add hnow hmax)) h
  unfold Instant.add?
  exact (if_pos hend).symm ▸ rfl

theorem neverZero_exponential {base max : Duration}
    (h : ∀ n, Backoff.wait ⟨base, max, .empty⟩ n ≠ .zero) :
    Limiter.NeverZero (exponential base max) := by
  intro l hl k now hzero
  obtain ⟨counts, rfl⟩ := becomes_exponential hl
  exact h (Backoff.count ⟨base, max, counts⟩ k) (Option.some.inj hzero)

/-! ## What is counted -/

mutual
/-- A key that is forgotten was not added since, and the others were added as often as before. -/
theorem count_forget (k x : Key) :
    ∀ l : RateLimiter, count x (forget k l) = if x = k then 0 else count x l
  | backoff b => b.count_forget k x
  | bucket _ => (ite_self 0).symm
  | slowest ls => counts_forgets k x ls

theorem counts_forgets (k x : Key) :
    ∀ ls : List RateLimiter, counts x (forgets k ls) = if x = k then 0 else counts x ls
  | [] => (ite_self 0).symm
  | l :: ls => by
    rw [forgets, counts, count_forget k x l, counts_forgets k x ls]
    split <;> rfl
end

mutual
/-- No other key counts as added. -/
theorem count_delay_of_ne {k x : Key} (h : x ≠ k) (now : Instant) :
    ∀ l : RateLimiter, count x (delay k now l).2 = count x l
  | backoff b => (b.count_delay k x).trans (if_neg h)
  | bucket _ => rfl
  | slowest ls => counts_delays_of_ne h now ls

theorem counts_delays_of_ne {k x : Key} (h : x ≠ k) (now : Instant) :
    ∀ ls : List RateLimiter, counts x (delays k now ls).2 = counts x ls
  | [] => rfl
  | l :: ls => by
    have hl := count_delay_of_ne h now l
    have hls := counts_delays_of_ne h now ls
    rw [delays]
    split
    · next l' hd =>
      rw [hd] at hl
      rw [counts, counts, hl]
    · next d l' hd =>
      rw [hd] at hl
      dsimp only
      rw [counts, counts, hl, hls]
end

/-! ## The slowest of several limiters -/

theorem becomes_delays {ls : List RateLimiter} {l : RateLimiter} (k : Key) (now : Instant)
    (hl : l ∈ ls) : ∃ l' ∈ (delays k now ls).2, Limiter.Becomes l l' := by
  induction ls with
  | nil => cases hl
  | cons x ls ih =>
    have hx : Limiter.Becomes x (delay k now x).2 := .delay k now .refl
    rw [delays]
    split
    · next x' h =>
      rw [h] at hx
      rcases List.mem_cons.1 hl with rfl | hl
      · exact ⟨x', .head _, hx⟩
      · exact ⟨l, List.mem_cons_of_mem _ hl, .refl⟩
    · next d x' h =>
      rw [h] at hx
      rcases List.mem_cons.1 hl with rfl | hl
      · exact ⟨x', .head _, hx⟩
      · obtain ⟨l', hl', hb⟩ := ih hl
        exact ⟨l', List.mem_cons_of_mem _ hl', hb⟩

theorem becomes_forgets {ls : List RateLimiter} {l : RateLimiter} (k : Key) (hl : l ∈ ls) :
    ∃ l' ∈ forgets k ls, Limiter.Becomes l l' := by
  induction ls with
  | nil => cases hl
  | cons x ls ih =>
    rcases List.mem_cons.1 hl with rfl | hl
    · exact ⟨_, .head _, .forget k .refl⟩
    · obtain ⟨l', hl', hb⟩ := ih hl
      exact ⟨l', List.mem_cons_of_mem _ hl', hb⟩

/-- The slowest of several limiters goes on to be that, and each of them to be one of them. -/
theorem becomes_slowest {ls : List RateLimiter} {l l' : RateLimiter} (hl : l ∈ ls)
    (h : Limiter.Becomes (slowest ls) l') :
    ∃ ls', l' = slowest ls' ∧ ∃ x ∈ ls', Limiter.Becomes l x := by
  induction h with
  | refl => exact ⟨ls, rfl, l, hl, .refl⟩
  | delay k now _ ih =>
    obtain ⟨ls', rfl, x, hx, hb⟩ := ih
    obtain ⟨x', hx', hb'⟩ := becomes_delays k now hx
    exact ⟨_, rfl, x', hx', hb.trans hb'⟩
  | forget k _ ih =>
    obtain ⟨ls', rfl, x, hx, hb⟩ := ih
    obtain ⟨x', hx', hb'⟩ := becomes_forgets k hx
    exact ⟨_, rfl, x', hx', hb.trans hb'⟩

/-- The longest delay is not shorter than that of any of the limiters. -/
theorem delay_le_delays {k : Key} {now : Instant} {ls : List RateLimiter} {l : RateLimiter}
    {d : Duration} (hl : l ∈ ls) (h : (delays k now ls).1 = some d) :
    ∃ d', (delay k now l).1 = some d' ∧ d'.nanos ≤ d.nanos := by
  induction ls generalizing d with
  | nil => cases hl
  | cons x ls ih =>
    rw [delays] at h
    split at h
    · cases h
    · next d₁ x' hx =>
      obtain ⟨d₂, hd₂, rfl⟩ := Option.map_eq_some_iff.1 h
      have hleft : d₁.nanos ≤ (d₁.longer d₂).nanos := by unfold Duration.longer; split <;> omega
      have hright : d₂.nanos ≤ (d₁.longer d₂).nanos := by unfold Duration.longer; split <;> omega
      rcases List.mem_cons.1 hl with rfl | hl
      · exact ⟨d₁, by rw [hx], hleft⟩
      · obtain ⟨d', hd', hle⟩ := ih hl hd₂
        exact ⟨d', hd', Nat.le_trans hle hright⟩

/-- If one of several limiters never has a delay of no time, the slowest of them never has. -/
theorem neverZero_slowest {ls : List RateLimiter} {l : RateLimiter} (hl : l ∈ ls)
    (h : Limiter.NeverZero l) : Limiter.NeverZero (slowest ls) := by
  intro l' hl' k now hzero
  obtain ⟨ls', rfl, x, hx, hb⟩ := becomes_slowest hl hl'
  obtain ⟨d, hd, hle⟩ := delay_le_delays hx (show (delays k now ls').1 = some .zero from hzero)
  have hd₀ : d = .zero := congrArg Duration.mk (Nat.le_zero.1 hle)
  exact h x hb k now (hd.trans (congrArg some hd₀))

/-- The limiter of the controller's queue never has a delay of no time. -/
theorem neverZero_standard (now : Instant) : Limiter.NeverZero (standard now) :=
  neverZero_slowest (.head _) <| neverZero_exponential <|
    Backoff.wait_ne_zero (by decide) (by decide) (by decide)

end RateLimiter

end Prewarm
