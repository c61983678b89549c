import Mathlib.Data.List.Induction
import Prewarm.Proofs.Limiter

/-!
# How far waits double

A limiter with doubling waits is asked for waits and told to forget keys, in any order (`Call`).
What it says of a key is a matter of how often it was asked for a wait of this key since the key was
forgotten last (`additions`), and of no call for another key. The wait is the shortest one doubled
that often, if it fits a word of 64 bits or is longer than the longest, and in no other case
(`delay_doubles`). A word of nanoseconds ends after some 584 years. A longest wait beyond that is
not safe: the word keeps only the lower part of what is doubled, and of a second that was doubled 55
times it keeps nothing, so that the key is added at once (`delay_wraps`).
-/

namespace Prewarm.Backoff

/-- A call of a limiter. -/
inductive Call where
  /-- It is asked for the wait of a key that is added. -/
  | delay (k : Key)
  /-- It is told to forget a key. -/
  | forget (k : Key)
  deriving DecidableEq

/-- The key that a call is about. -/
def Call.key : Call → Key
  | delay k | forget k => k

/-- The limiter after a call. -/
def call (b : Backoff) : Call → Backoff
  | .delay k => (b.delay k).2
  | .forget k => b.forget k

/-- The limiter after calls, the first one first. -/
def after (b : Backoff) (cs : List Call) : Backoff := cs.foldl call b

/-- How often a key was added in calls since it was forgotten last. -/
def additions (k : Key) (cs : List Call) : Nat :=
  (cs.reverse.takeWhile (· ≠ .forget k)).count (.delay k)

section
variable {cs cs' : List Call}

/-! ## What is counted -/

theorem additions_concat (k : Key) (cs : List Call) (c : Call) :
    additions k (cs ++ [c]) =
      if c = .forget k then 0 else additions k cs + if c = .delay k then 1 else 0 := by
  unfold additions
  rw [List.reverse_concat]
  by_cases hforget : c = .forget k
  · simp [hforget]
  · rw [List.takeWhile_cons_of_pos (by simpa using hforget), List.count_cons, if_neg hforget]
    simp

/-- Calls for other keys do not count. -/
theorem additions_filter (k : Key) (cs : List Call) :
    additions k (cs.filter (·.key = k)) = additions k cs := by
  induction cs using List.reverseRecOn with
  | nil => rfl
  | append_singleton cs c ih =>
    rw [List.filter_append, additions_concat]
    by_cases hkey : c.key = k
    · have hone : [c].filter (·.key = k) = [c] := by simp [hkey]
      rw [hone, additions_concat, ih]
    · have hforget : c ≠ .forget k := fun h => hkey (congrArg Call.key h)
      have hdelay : c ≠ .delay k := fun h => hkey (congrArg Call.key h)
      have hnone : [c].filter (·.key = k) = [] := by simp [hkey]
      rw [hnone, List.append_nil, ih, if_neg hforget, if_neg hdelay, Nat.add_zero]

/-- The count of a key does not go down until it is forgotten. -/
theorem additions_le_append (k : Key) (cs : List Call) (h : .forget k ∉ cs') :
    additions k cs ≤ additions k (cs ++ cs') := by
  induction cs' using List.reverseRecOn with
  | nil => exact Nat.le_of_eq (congrArg (additions k) (List.append_nil cs).symm)
  | append_singleton cs' c ih =>
    rw [List.mem_append, not_or, List.mem_singleton] at h
    rw [← List.append_assoc, additions_concat, if_neg (Ne.symm h.2)]
    exact Nat.le_trans (ih h.1) (Nat.le_add_right _ _)

theorem count_call (b : Backoff) (c : Call) (k : Key) : (b.call c).count k =
    if c = .forget k then 0 else if c = .delay k then min (b.count k + 1) countLimit
      else b.count k := by
  cases c with
  | delay x =>
    refine (b.count_delay x k).trans ?_
    by_cases hx : k = x <;> simp [hx, eq_comm]
  | forget x =>
    refine (b.count_forget x k).trans ?_
    by_cases hx : k = x <;> simp [hx, eq_comm]

theorem after_concat (b : Backoff) (cs : List Call) (c : Call) :
    b.after (cs ++ [c]) = (b.after cs).call c :=
  List.foldl_append

/-- No call changes the shortest and the longest wait. -/
theorem after_bounds (b : Backoff) (cs : List Call) :
    (b.after cs).base = b.base ∧ (b.after cs).max = b.max := by
  induction cs using List.reverseRecOn with
  | nil => exact ⟨rfl, rfl⟩
  | append_singleton cs c ih =>
    rw [after_concat]
    cases c with
    | delay k | forget k => exact ih

/-- A new limiter counts the additions of a key, up to the greatest number of 32 bits. -/
theorem count_after (base max : Duration) (k : Key) (cs : List Call) :
    ((⟨base, max, .empty⟩ : Backoff).after cs).count k = min (additions k cs) countLimit := by
  induction cs using List.reverseRecOn with
  | nil => rfl
  | append_singleton cs c ih =>
    rw [after_concat, count_call, ih, additions_concat]
    split
    · rfl
    · split <;> omega

/-! ## What is answered -/

/-- The wait of a key is a matter of its additions. -/
theorem delay_after (base max : Duration) (k : Key) (cs : List Call) :
    (((⟨base, max, .empty⟩ : Backoff).after cs).delay k).1 =
      (⟨base, max, .empty⟩ : Backoff).wait (additions k cs) := by
  obtain ⟨hbase, hmax⟩ := after_bounds ⟨base, max, .empty⟩ cs
  unfold delay
  dsimp only
  rw [count_after, wait_min_countLimit]
  unfold wait
  rw [hbase, hmax]

/-- **Waits double until the longest, as long as they fit a word.** A limiter that begins with any
shortest and longest span was called in any way for any keys. It has counted how often the key was
added since it was forgotten last, up to the greatest number of 32 bits. The next wait of the key is
the shortest span doubled once for each of these additions, or the longest span if that is shorter:
this is so if the doubled span is longer than the longest or fits a word of 64 bits of nanoseconds,
and otherwise the wait is what a word has of it. Calls for other keys make no difference. If the
longest span fits a word, waits are as they should be: they do not get shorter until the key is
forgotten, and they are not zero unless one of the two spans is. -/
theorem delay_doubles (base max : Duration) (hmax : max.seconds < Nat.pow 2 64) (k : Key)
    (cs : List Call) :
    let b : Backoff := (⟨base, max, .empty⟩ : Backoff).after cs
    let doubled := base.nanos * Nat.pow 2 (additions k cs)
    b.count k = min (additions k cs) (Nat.pow 2 32 - 1) ∧
    ((b.delay k).1 = ⟨min doubled max.nanos⟩ ↔ max.nanos < doubled ∨ doubled < Nat.pow 2 64) ∧
    (doubled ≤ max.nanos → (b.delay k).1 = ⟨doubled % Nat.pow 2 64⟩) ∧
    (∀ cs', cs'.filter (·.key = k) = cs.filter (·.key = k) →
      ((after ⟨base, max, .empty⟩ cs').delay k).1 = (b.delay k).1 ∧
      (after ⟨base, max, .empty⟩ cs').count k = b.count k) ∧
    (max.nanos < Nat.pow 2 64 →
      (∀ cs', .forget k ∉ cs' → (b.delay k).1.nanos ≤ ((b.after cs').delay k).1.nanos) ∧
      (0 < base.nanos → 0 < max.nanos → (b.delay k).1 ≠ .zero)) := by
  intro b doubled
  have hdelay : (b.delay k).1 = if max.nanos < doubled then max else ⟨doubled % Nat.pow 2 64⟩ :=
    (delay_after base max k cs).trans (wait_cut (Duration.nanos_lt_of_seconds_lt hmax) _)
  refine ⟨count_after base max k cs, ?_, fun hle => ?_, fun cs' hcalls => ?_,
    fun hword => ⟨fun cs' hforget => ?_, fun hbase hpos => ?_⟩⟩
  · rw [hdelay]
    split
    · next hlong => simp [hlong, Nat.min_eq_right (Nat.le_of_lt hlong)]
    · next hle =>
      rw [Nat.min_eq_left (Nat.not_lt.1 hle), or_iff_right hle, Duration.mk.injEq]
      exact Nat.mod_eq_iff_lt (by decide)
  · rw [hdelay, if_neg (Nat.not_lt.2 hle)]
  · have hadd : additions k cs' = additions k cs := by
      rw [← additions_filter, hcalls, additions_filter]
    rw [delay_after, delay_after, count_after, count_after, hadd]
    exact ⟨rfl, rfl⟩
  · have hafter : b.after cs' = (⟨base, max, .empty⟩ : Backoff).after (cs ++ cs') :=
      List.foldl_append.symm
    rw [hafter, delay_after, delay_after, wait_eq hword, wait_eq hword]
    have hpow := Nat.pow_le_pow_right Nat.two_pos (additions_le_append k cs hforget)
    have hdoubled := Nat.mul_le_mul_left base.nanos hpow
    exact Nat.le_min.2 ⟨Nat.le_trans (Nat.min_le_left ..) hdoubled, Nat.min_le_right ..⟩
  · rw [delay_after]
    exact wait_ne_zero hbase hpos hword _

end

/-- The fourth wait of a key that was not forgotten is cut down to the longest one. -/
theorem delay_doubles_capped :
    let cs : List Call := [.delay "k", .delay "x", .delay "k", .forget "x", .delay "k"]
    let b : Backoff := (⟨.ofMillis 1, .ofMillis 5, .empty⟩ : Backoff).after cs
    b.count "k" = 3 ∧ (b.delay "k").1 = .ofMillis 5 ∧
      (.ofMillis 5 : Duration).nanos ≤ ((b.after [.delay "k", .forget "x"]).delay "k").1.nanos ∧
      ((b.after [.forget "k"]).delay "k").1 = .ofMillis 1 := by
  intro cs b
  have hmax : (Duration.ofMillis 5).seconds < Nat.pow 2 64 := by decide
  obtain ⟨hcount, hexact, -, -, hword⟩ := delay_doubles (.ofMillis 1) _ hmax "k" cs
  have hdelay : (b.delay "k").1 = .ofMillis 5 := (hexact.2 (.inl (by decide))).trans (by decide)
  refine ⟨hcount, hdelay, ?_, ?_⟩
  · rw [← hdelay]
    exact (hword (by decide)).1 _ (by decide)
  · obtain ⟨-, hexact, -⟩ := delay_doubles (.ofMillis 1) _ hmax "k" (cs ++ [.forget "k"])
    exact (hexact.2 (.inr (by decide))).trans (by decide)

/-- A second was doubled 55 times and is still shorter than the longest wait, but a word has nothing
of it. -/
theorem delay_wraps :
    let longest : Duration := .ofSeconds (Nat.pow 2 64 - 1)
    let cs : List Call := .replicate 55 (.delay "k")
    let b : Backoff := (⟨.ofSeconds 1, longest, .empty⟩ : Backoff).after cs
    longest.seconds < Nat.pow 2 64 ∧ additions "k" cs = 55 ∧ (b.delay "k").1 = .zero ∧
      (b.delay "k").1 ≠ ⟨min ((Duration.ofSeconds 1).nanos * Nat.pow 2 55) longest.nanos⟩ := by
  intro longest cs b
  have hadd : additions "k" cs = 55 := by decide +kernel
  have hdelay : (b.delay "k").1 = .zero := by
    rw [delay_after, hadd, wait_cut (by decide)]
    decide
  refine ⟨by decide, hadd, hdelay, ?_⟩
  rw [hdelay]
  decide

end Prewarm.Backoff
