import Prewarm.Proofs.WorkQueue.Timer

/-!
# Delayed additions are on time

A queue on a clock of whole milliseconds. The clock stands still while a run of the timer is ready,
and does not go past the millisecond that a parked one is to fire on; otherwise anything can be done
with the queue at any time (`Timed.Step`). Beside the queue stands what it was asked for, so that it
can be said which instant a key should wait for.

A key waits for the earliest instant at which it was asked for, and as long as it waits that instant
is not past (`Timely`). When no run of the timer is ready, one is parked until the next instant, or
none is there and no key waits (`OnTime`). So a key that waits is added in the first millisecond
that is not before the earliest instant, or the queue shuts down (`delayed_adds_timely`).

An addition without a delay asks for nothing in this sense: it leaves a key that waits as it is, and
the key is added a second time later (`addition_at_once_apart`).
-/

namespace Prewarm

/-- A queue on a clock, with what it was asked for. -/
structure Timed (L : Type) where
  /-- The millisecond that the clock shows. -/
  millis : Nat
  queue : WorkQueue L
  /-- The instants at which each key was asked for since it last stopped waiting. -/
  asked : Key → List Instant := fun _ => []

/-- The earliest of some instants, none if there are none. -/
def IsEarliest (ts : List Instant) : Option Instant → Prop
  | none => ts = []
  | some t => t ∈ ts ∧ ∀ u ∈ ts, t.nanos ≤ u.nanos

/-- One more instant makes the earliest the earlier one of both. -/
theorem IsEarliest.concat {ts : List Instant} {w : Option Instant} (h : IsEarliest ts w)
    (due : Instant) : IsEarliest (ts ++ [due]) (some (w.elim due (·.earlier due))) := by
  cases w with
  | none =>
    cases h
    refine ⟨List.mem_singleton.2 rfl, fun u hu => ?_⟩
    cases List.mem_singleton.1 hu
    exact Nat.le_refl _
  | some t =>
    obtain ⟨hmem, hle⟩ := h
    rw [Option.elim_some]
    constructor
    · unfold Instant.earlier
      split
      · exact List.mem_append_left _ hmem
      · exact List.mem_append_right _ (List.mem_singleton.2 rfl)
    · intro u hu
      rcases List.mem_append.1 hu with hu | hu
      · exact Nat.le_trans (WorkQueue.earlier_le_left t due) (hle u hu)
      · cases List.mem_singleton.1 hu
        exact WorkQueue.earlier_le_right t due

namespace Timed

open WorkQueue (Deed History Tended Closed IsNextDue)

section
variable {L : Type}

/-- The reading of the clock. -/
def now (s : Timed L) : Instant := .ofMillis s.millis

/-- Whether no run of the timer is ready. -/
def Settled (s : Timed L) : Prop := .ready ∉ s.queue.timers

/-- What it is when the clock shows a later millisecond. -/
def wait (s : Timed L) (m : Nat) : Timed L :=
  { s with millis := m, queue := s.queue.tick (.ofMillis m) }

/-- A queue without keys, when the clock shows a millisecond. -/
def opening (name : String) (l : L) (m : Nat) : Timed L where
  millis := m
  queue := .withLimiter name l

/-! ## Settled queues -/

/-- A queue whose timer looks after its keys: each waits for the earliest instant at which it was
asked for, and this is not past. -/
structure Timely (s : Timed L) : Prop where
  closed : Closed s.queue
  tended : Tended s.now s.queue
  asked : ∀ k, IsEarliest (s.asked k) (s.queue.waiting.get? k)
  le : ∀ k t, s.queue.waiting.get? k = some t → s.millis ≤ t.ceilMillis

/-- A queue without keys is timely. -/
theorem timely_opening (name : String) (l : L) (m : Nat) : Timely (opening name l m) where
  closed := fun h => by cases h
  tended := .idle rfl rfl fun _ => rfl
  asked := fun _ => rfl
  le := fun _ _ h => by cases h

/-- What holds when no run of the timer is ready. -/
structure OnTime (s : Timed L) : Prop where
  /-- A run of the timer is said to be there just as long as a key waits. -/
  running : s.queue.timerRunning = true ↔ ∃ k, (s.queue.waiting.get? k).isSome
  /-- If a key waits there is one run of the timer, which is parked until the next instant. -/
  parked : (∃ k, (s.queue.waiting.get? k).isSome) →
    ∃ t, s.queue.timers = [.parked t] ∧ s.queue.IsNextDue t
  /-- If no key waits there is no run of the timer. -/
  idle : (∀ k, s.queue.waiting.get? k = none) → s.queue.timers = []
  /-- All instants that keys wait for are ahead. -/
  ahead : ∀ k t, s.queue.waiting.get? k = some t → s.now.nanos < t.nanos
  /-- When the queue shuts down no run of the timer is left. -/
  closed : s.queue.shuttingDown = true → s.queue.timers = []

/-- A timely queue at which no run of the timer is ready is on time. -/
theorem Timely.onTime {s : Timed L} (h : Timely s) (hsettled : s.Settled) : OnTime s := by
  cases h.tended with
  | idle hrun htimers hnone =>
    have hno : ¬ ∃ k, (s.queue.waiting.get? k).isSome := fun ⟨k, hk⟩ => by
      rw [hnone] at hk
      cases hk
    exact {
      running := by simp [hrun, hno]
      parked := fun hk => absurd hk hno
      idle := fun _ => htimers
      ahead := fun k t hk => by cases (hnone k).symm.trans hk
      closed := fun _ => htimers }
  | ready _ htimers => exact absurd (by rw [htimers]; exact List.mem_cons_self) hsettled
  | @parked t hrun htimers hnext hlt =>
    obtain ⟨k, hk⟩ := hnext.exists_key
    have hsome : ∃ k, (s.queue.waiting.get? k).isSome := ⟨k, by rw [hk]; rfl⟩
    exact {
      running := ⟨fun _ => hsome, fun _ => hrun⟩
      parked := fun _ => ⟨t, htimers, hnext⟩
      idle := fun hnone => by cases (hnone k).symm.trans hk
      ahead := fun k u hu => Nat.lt_of_lt_of_le hlt (hnext.le k u hu)
      closed := fun hs => by cases (h.closed hs k).symm.trans hk }

/-! ## Runs -/

variable [Limiter L]

/-- What it is after a deed that leads to a queue. -/
def after (s : Timed L) (e : Deed) (q : WorkQueue L) : Timed L where
  millis := s.millis
  queue := q
  asked k :=
    if (q.waiting.get? k).isSome then s.asked k ++ (e.request? s.now s.queue k).toList else []

/-- What can be done with a queue on a clock: anything at the instant that the clock shows, or time
passes. -/
inductive Step (s : Timed L) : Deed → Timed L → Prop
  | deed {e : Deed} {q : WorkQueue L} : e ≠ .tick → WorkQueue.Step s.now s.queue e q →
      Step s e (s.after e q)
  | pass {m : Nat} : s.Settled → s.millis ≤ m →
      (∀ t, .parked t ∈ s.queue.timers → m ≤ t.ceilMillis) → Step s .tick (s.wait m)

/-- A history of a queue on a clock, with what it leads to. -/
inductive Run (s₀ : Timed L) : History → Timed L → Prop
  | start : Run s₀ [] s₀
  | next {τ : History} {s s' : Timed L} {e : Deed} :
      Run s₀ τ s → Step s e s' → Run s₀ (τ ++ [(s'.now, e)]) s'

variable {s s' : Timed L} {e : Deed} {k : Key} {t due : Instant} {σ τ : History}

/-! ## What every step keeps -/

/-- No key is asked for at an instant that is past. -/
theorem le_request? {q : WorkQueue L} {now : Instant} (h : e.request? now q k = some due) :
    now.nanos ≤ due.nanos := by
  unfold Deed.request? at h
  split at h
  · cases h
  · obtain ⟨d, -, h⟩ := Option.bind_eq_some_iff.1 h
    split at h
    · cases h
    · unfold Instant.add? at h
      split at h
      · cases h
        exact Nat.le_add_right ..
      · cases h

/-- An instant at which a key is asked for counts from then on. -/
theorem Step.mem_asked (hs : Step s e s') (hr : e.request? s.now s.queue k = some due) :
    due ∈ s'.asked k := by
  cases hs with
  | @deed e q he hs =>
    have hsome : (q.waiting.get? k).isSome := by
      rcases hs.moves k with hmoves | ⟨-, rfl | ⟨rfl, -⟩⟩
      · generalize q.waiting.get? k = w' at hmoves
        cases hmoves with
        | stay hnone => cases hnone.symm.trans hr
        | asked _ => rfl
      · cases (WorkQueue.request?_eq_none rfl).symm.trans hr
      · cases (WorkQueue.request?_eq_none rfl).symm.trans hr
    simp only [after, if_pos hsome, hr]
    exact List.mem_append_right _ (List.mem_singleton.2 rfl)
  | pass => cases (WorkQueue.request?_eq_none rfl).symm.trans hr

/-- A queue stays timely, whatever is done with it and however time passes. -/
theorem Timely.step (h : Timely s) (hs : Step s e s') : Timely s' := by
  cases hs with
  | @deed e q he hs =>
    refine ⟨hs.closed h.closed, hs.tended he h.tended h.closed, fun k => ?_, fun k t hk => ?_⟩
    · have hasked := h.asked k
      dsimp only [after]
      rcases hs.moves k with hmoves | ⟨hgone, -⟩
      · generalize s.queue.waiting.get? k = w at hasked hmoves
        generalize q.waiting.get? k = w' at hmoves
        cases hmoves with
        | stay hr =>
          rw [hr]
          cases w with
          | none => rfl
          | some t => simpa using hasked
        | asked hr =>
          rw [hr]
          exact hasked.concat _
      · rw [hgone]
        rfl
    · rcases hs.moves k with hmoves | ⟨hgone, -⟩
      · rcases hmoves.eq_or hk with hk | hrequest
        · exact h.le k t hk
        · exact Instant.le_ceilMillis_of_le (le_request? hrequest)
      · cases hgone.symm.trans hk
  | @pass m hsettled hle hparked =>
    refine ⟨h.closed, h.tended.tick _, h.asked, fun k u hk => ?_⟩
    cases h.tended with
    | idle _ _ hnone => cases (hnone k).symm.trans hk
    | ready _ htimers => exact absurd (by rw [htimers]; exact List.mem_cons_self) hsettled
    | @parked t _ htimers hnext _ =>
      have hm : m ≤ t.ceilMillis := hparked t (by rw [htimers]; exact List.mem_cons_self)
      exact Nat.le_trans hm (Instant.ceilMillis_mono (hnext.le k u hk))

/-- A timely queue stays timely. -/
theorem Run.timely (h : Run s τ s') (hs : Timely s) : Timely s' := by
  induction h with
  | start => exact hs
  | next _ hstep ih => exact ih.step hstep

/-! ## What becomes of a key that waits -/

/-- What becomes of a key that waits for an instant `t`, after a history that leads from `s` to
`s'`. -/
inductive Fate (s : Timed L) (k : Key) (t : Instant) (σ : History) (s' : Timed L) : Prop
  /-- It waits still, until the same instant or an earlier one, which is not past. -/
  | waits {u : Instant} : s'.queue.waiting.get? k = some u → u.nanos ≤ t.nanos →
      s'.millis ≤ u.ceilMillis → Fate s k t σ s'
  /-- The queue was shut down. -/
  | shut {m : Instant} : (m, .shutDown) ∈ σ → Fate s k t σ s'
  /-- A run of the timer has added it, in the first millisecond that is not before the earliest
  instant at which it was asked for, and it does not wait any more. -/
  | added {σ₁ σ₂ : History} {s₁ s₂ : Timed L} {u : Instant} :
      σ = σ₁ ++ (s₁.now, .fire) :: σ₂ → Run s σ₁ s₁ → Step s₁ .fire s₂ → Run s₂ σ₂ s' →
      IsEarliest (s₁.asked k) (some u) → u.nanos ≤ t.nanos → s₁.millis = u.ceilMillis →
      k ∈ s₂.queue.dirty → s₂.queue.waiting.get? k = none → Fate s k t σ s'

/-- What can become of a key that waits covers everything that can be done next. -/
theorem Fate.step {s'' : Timed L} (h : Fate s k t σ s') (hrun : Run s σ s') (hs' : Timely s')
    (hs : Step s' e s'') : Fate s k t (σ ++ [(s''.now, e)]) s'' := by
  cases h with
  | @waits u hk hle _ =>
    have hs'' : Timely s'' := hs'.step hs
    cases hs with
    | @deed e q he hdeed =>
      rcases hdeed.moves k with hmoves | ⟨hgone, rfl | ⟨rfl, hdirty, u', hu', hreached⟩⟩
      · rw [hk] at hmoves
        obtain ⟨v, hv, hvu⟩ := hmoves.le
        exact .waits hv (Nat.le_trans hvu hle) (hs''.le k v hv)
      · exact .shut (List.mem_append_right _ (List.mem_singleton.2 rfl))
      · -- the instant is reached and not past
        cases hk.symm.trans hu'
        have hearliest : IsEarliest (s'.asked k) (some u) := hk ▸ hs'.asked k
        have hceil : s'.millis = u.ceilMillis :=
          Nat.le_antisymm (hs'.le k u hk) ((u.ceilMillis_le_iff _).2 (of_decide_eq_true hreached))
        refine .added ?_ hrun (.deed he hdeed) .start hearliest hle hceil hdirty hgone
        rfl
    | pass => exact .waits hk hle (hs''.le k u hk)
  | shut hmem => exact .shut (List.mem_append_left _ hmem)
  | added hσ hrun₁ hfire hrun₂ hearliest hle hceil hdirty hgone =>
    refine .added ?_ hrun₁ hfire (hrun₂.next hs) hearliest hle hceil hdirty hgone
    rw [hσ, List.append_assoc, List.cons_append]

/-- A key that waits meets one of its fates in every run. -/
theorem Run.fate (h : Run s σ s') (hs : Timely s) (hk : s.queue.waiting.get? k = some t) :
    Fate s k t σ s' := by
  induction h with
  | start => exact .waits hk (Nat.le_refl _) (hs.le k t hk)
  | next hrun hstep ih => exact ih.step hrun (hrun.timely hs) hstep

/-- At a queue that began without keys, a key waits just until the earliest instant at which it was
asked for since it last stopped waiting, it waits once it is asked for, and none waits when the
queue shuts down. A settled queue is on time. Each key that waits is added by the timer in the first
millisecond that is not before that instant, or the queue is shut down before. -/
theorem delayed_adds_timely {name : String} {l : L} {m : Nat} (h : Run (opening name l m) τ s) :
    (∀ k, IsEarliest (s.asked k) (s.queue.waiting.get? k)) ∧
    (∀ k due e s', Step s e s' → e.request? s.now s.queue k = some due → due ∈ s'.asked k) ∧
    (s.queue.shuttingDown = true → ∀ k, s.queue.waiting.get? k = none) ∧
    (s.Settled → OnTime s) ∧
    ∀ k t, s.queue.waiting.get? k = some t → ∀ σ s', Run s σ s' → Fate s k t σ s' := by
  have htimely := h.timely (timely_opening name l m)
  exact ⟨htimely.asked, fun _ _ _ _ hs hr => hs.mem_asked hr, htimely.closed, htimely.onTime,
    fun _ _ hk _ _ hrun => hrun.fate htimely hk⟩

/-- A key that waits for five seconds is asked for after two. The timer is parked until then, and
two seconds later it adds the key. -/
theorem delayed_adds_timely_earlier :
    let s₀ : Timed RateLimiter := opening "q" (.slowest []) 0
    let s₁ := s₀.after (.addAfter "ns/a" (.ofMillis 5000))
      (s₀.queue.addAfter "ns/a" s₀.now (.ofMillis 5000)).2
    let s₂ := s₁.after .fire (s₁.queue.runTimer s₁.now)
    let s₃ := s₂.after (.addAfter "ns/a" (.ofMillis 2000))
      (s₂.queue.addAfter "ns/a" s₂.now (.ofMillis 2000)).2
    let s₄ := s₃.after .fire (s₃.queue.runTimer s₃.now)
    let s₅ := s₄.wait 2000
    let s₆ := s₅.after .fire (s₅.queue.runTimer s₅.now)
    OnTime s₄ ∧ s₄.asked "ns/a" = [.ofMillis 5000, .ofMillis 2000] ∧
      IsEarliest (s₄.asked "ns/a") (some (.ofMillis 2000)) ∧
      Fate s₄ "ns/a" (.ofMillis 2000) [(.ofMillis 2000, .tick), (.ofMillis 2000, .fire)] s₆ ∧
      "ns/a" ∈ s₆.queue.dirty := by
  intro s₀ s₁ s₂ s₃ s₄ s₅ s₆
  have h₁ : Run s₀ _ s₁ := Run.start.next (.deed (by decide) (.addAfter _ _))
  have h₂ : Run s₀ _ s₂ := h₁.next (.deed (by decide) .fire)
  have h₃ : Run s₀ _ s₃ := h₂.next (.deed (by decide) (.addAfter _ _))
  have h₄ : Run s₀ _ s₄ := h₃.next (.deed (by decide) .fire)
  have htimers : s₄.queue.timers = [.parked (.ofMillis 2000)] := by decide +kernel
  have hwait : s₄.queue.waiting.get? "ns/a" = some (.ofMillis 2000) := by decide +kernel
  have hsettled : s₄.Settled := by simp [Settled, htimers]
  have hpass : Step s₄ .tick s₅ := by
    refine .pass hsettled (Nat.zero_le _) fun t ht => ?_
    rw [htimers] at ht
    cases List.mem_singleton.1 ht
    decide
  have h₆ : Run s₄ _ s₆ := (Run.start.next hpass).next (.deed (by decide) .fire)
  obtain ⟨hasked, -, -, hontime, hfate⟩ := delayed_adds_timely h₄
  refine ⟨hontime hsettled, by decide +kernel, ?_, hfate _ _ hwait _ _ h₆, by decide +kernel⟩
  exact hwait ▸ hasked "ns/a"

/-- A key that waits for five seconds is added without a delay. It goes on waiting for the five
seconds, although it was asked for at once and was not dirty. -/
theorem addition_at_once_apart :
    let s₀ : Timed RateLimiter := opening "q" (.slowest []) 0
    let s₁ := s₀.after (.addAfter "ns/a" (.ofMillis 5000))
      (s₀.queue.addAfter "ns/a" s₀.now (.ofMillis 5000)).2
    let s₂ := s₁.after .fire (s₁.queue.runTimer s₁.now)
    let s₃ := s₂.after (.addAfter "ns/a" .zero) (s₂.queue.addAfter "ns/a" s₂.now .zero).2
    Run s₀ [(.ofMillis 0, .addAfter "ns/a" (.ofMillis 5000)), (.ofMillis 0, .fire),
      (.ofMillis 0, .addAfter "ns/a" .zero)] s₃ ∧
      "ns/a" ∉ s₀.queue.dirty ∧ "ns/a" ∉ s₂.queue.dirty ∧ s₃.Settled ∧
      s₃.queue.waiting.get? "ns/a" = some (.ofMillis 5000) := by
  intro s₀ s₁ s₂ s₃
  have h₁ : Run s₀ _ s₁ := Run.start.next (.deed (by decide) (.addAfter _ _))
  have h₂ : Run s₀ _ s₂ := h₁.next (.deed (by decide) .fire)
  have h₃ : Run s₀ _ s₃ := h₂.next (.deed (by decide) (.addAfter _ _))
  have htimers : s₃.queue.timers = [.parked (.ofMillis 5000)] := by decide +kernel
  exact ⟨h₃, by decide, by decide +kernel, by simp [Settled, htimers], by decide +kernel⟩

end

end Timed

end Prewarm
