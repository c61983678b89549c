import Prewarm.Proofs.WorkQueue.Exclusive
import Prewarm.Proofs.WorkQueue.Pending

/-!
# No addition is lost

A key that is added, at once or after a delay, is handed out after that, or it is dirty, or it waits
for an instant that is not after the end of the delay (`add_not_lost`). When a key is added after
the delay of the limiter, the delay is a matter of what the limiter was asked before; `limiterAfter`
reads that off the history. The clock has to be able to show the end of the delay: where it cannot,
the addition breaks off and leaves nothing behind (`addition_lost_beyond_clock`).
-/

namespace Prewarm.WorkQueue

section
variable {L : Type} [Limiter L] {q₀ q q' : WorkQueue L} {now t due : Instant} {e : Deed} {k : Key}
  {τ σ : History}

/-- The delay after which a deed adds a key, if it does, with what its queue's limiter is then. -/
def Deed.delay? (now : Instant) (l : L) (k : Key) : Deed → Option Duration
  | .add x => if x = k then some .zero else none
  | .addAfter x d => if x = k then some d else none
  | .addRateLimited x => if x = k then (Limiter.delay k now l).1 else none
  | _ => none

/-! ## Steps -/

/-- A deed that adds a key leaves it pending by the end of the delay, if the clock can show that. -/
theorem Step.pendingBy {d : Duration} (h : Step now q e q') (hs : q.shuttingDown = false)
    (hd : e.delay? now q.limiter k = some d) (hshown : d = .zero ∨ (now.add? d).isSome) :
    PendingBy ⟨now.nanos + d.nanos⟩ q' k := by
  have hafter : ∀ p : WorkQueue L, p.shuttingDown = false →
      PendingBy ⟨now.nanos + d.nanos⟩ (p.addAfter k now d).2 k := by
    intro p hp
    refine pendingBy_addAfter hp ?_
    rcases addAfter_cases p k now d with ⟨-, he⟩ | ⟨hne, hnone, -⟩ | ⟨-, t, -, he⟩
    · rw [he]
    · have := hshown.resolve_left hne
      rw [hnone] at this
      cases this
    · rw [he]
  cases h with
  | add x =>
    rw [Deed.delay?, Option.ite_none_right_eq_some] at hd
    obtain ⟨rfl, -⟩ := hd
    exact .inl (mem_dirty_add hs)
  | addAfter x d' =>
    rw [Deed.delay?, Option.ite_none_right_eq_some] at hd
    obtain ⟨rfl, hd⟩ := hd
    cases hd
    exact hafter q hs
  | addRateLimited x =>
    rw [Deed.delay?, Option.ite_none_right_eq_some] at hd
    obtain ⟨rfl, hd⟩ := hd
    rcases addRateLimited_cases q x now with ⟨l, hl, -⟩ | ⟨d', l, hl, he⟩ <;> rw [hl] at hd <;>
      cases hd
    rw [he]
    exact hafter { q with limiter := l } hs
  | handOut | turnAway | leave | done | forget | shutDown | tick | fire => cases hd

/-- A key that is pending by an instant is handed out or stays so, whatever else is done. -/
theorem PendingBy.step (h : PendingBy due q k) (hs : Step now q e q')
    (hopen : q.shuttingDown = false) (he : e ≠ .shutDown) :
    (∃ g, e = .handOut g k) ∨ PendingBy due q' k := by
  cases hs with
  | add x => exact .inr (h.add x)
  | addAfter x d => exact .inr (h.addAfter x now d)
  | addRateLimited x => exact .inr (h.addRateLimited x now)
  | @handOut g x q' ha =>
    refine (h.ask g).imp (fun hk => ⟨g, ?_⟩) fun hk => ?_
    · rw [ha] at hk
      cases hk
      rfl
    · rwa [ha] at hk
  | @turnAway g a q' ha hno =>
    refine .inr ?_
    have := (h.ask g).resolve_left fun hk => hno k (by rw [← hk, ha])
    rwa [ha] at this
  | done x => exact .inr (h.done x)
  | fire => exact .inr (h.runTimer hopen now)
  | shutDown => exact absurd rfl he
  | leave | forget | tick => exact .inr (h.congr rfl rfl)

/-! ## Runs -/

/-- In every run from an empty queue: after an addition of a key, until the queue shuts down, the
key was handed out since, is dirty, or waits for an instant not after the end of the delay, if the
clock can show that end. And a dirty key that no worker has stands on the queue, so a key that needs
work stands there as soon as the work on it is done. -/
theorem add_not_lost {name : String} {l : L} {ρ : History} (h : Run (withLimiter name l) ρ q) :
    (∀ (τ σ : History) (t : Instant) (e : Deed) (k : Key) (d : Duration),
      ρ = τ ++ (t, e) :: σ → (∀ t', (t', Deed.shutDown) ∉ ρ) →
      e.delay? t (limiterAfter l τ) k = some d → d = .zero ∨ (t.add? d).isSome →
      (∃ t' g, (t', Deed.handOut g k) ∈ σ) ∨ k ∈ q.dirty ∨
        ∃ due, q.waiting.get? k = some due ∧ due.nanos ≤ t.nanos + d.nanos) ∧
    ∀ k ∈ q.dirty, (k ∉ q.processing → k ∈ q.queue) ∧ k ∈ (q.done k).queue := by
  constructor
  · intro τ σ t e k d hρ hopen hd hshown
    subst hρ
    refine h.since (motive := fun σ q => (∀ t', (t', Deed.shutDown) ∉ τ ++ (t, e) :: σ) →
      (∃ t' g, (t', Deed.handOut g k) ∈ σ) ∨ PendingBy ⟨t.nanos + d.nanos⟩ q k) ?_ ?_ hopen
    · intro q₁ q₂ hrun hs hopen
      have hq₁ := hrun.not_shuttingDown rfl fun t' ht => hopen t' (List.mem_append_left _ ht)
      have hl : q₁.limiter = limiterAfter l τ := hrun.limiter_eq
      exact .inr (hs.pendingBy hq₁ (hl ▸ hd) hshown)
    · intro σ q₁ q₂ now e' hrun hs ih hopen
      rw [← List.cons_append, ← List.append_assoc] at hopen
      have hopen' : ∀ t', (t', Deed.shutDown) ∉ τ ++ (t, e) :: σ :=
        fun t' ht => hopen t' (List.mem_append_left _ ht)
      rcases ih hopen' with ⟨t', g, hg⟩ | hk
      · exact .inl ⟨t', g, List.mem_append_left _ hg⟩
      · have he' : e' ≠ .shutDown := fun he => hopen now (by simp [he])
        rcases hk.step hs (hrun.not_shuttingDown rfl hopen') he' with ⟨g, rfl⟩ | hk
        · exact .inl ⟨now, g, by simp⟩
        · exact .inr hk
  · intro k hk
    obtain ⟨hq, -⟩ := h.invariant (exclusive_withLimiter name l) ⟨.nil, fun k => .rfl⟩
    refine ⟨fun hp => (hq.placed k hk).resolve_right hp, ?_⟩
    rcases done_cases q k with ⟨hno, -⟩ | ⟨-, he⟩
    · exact absurd hk hno
    · rw [he]
      exact List.mem_append_right _ (.head _)

end

/-- A key that is added after 5 seconds, and then again after 2, until the timer adds it. -/
theorem add_not_lost_merged :
    let l := RateLimiter.slowest []
    let q₁ := ((withLimiter "q" l).addAfter "ns/a" ⟨0⟩ (.ofSeconds 5)).2
    let q₂ := (q₁.addAfter "ns/a" ⟨1_000_000_000⟩ (.ofSeconds 2)).2
    let q := q₂.runTimer ⟨3_000_000_000⟩
    let ρ : History := [(⟨0⟩, .addAfter "ns/a" (.ofSeconds 5)),
      (⟨1_000_000_000⟩, .addAfter "ns/a" (.ofSeconds 2)), (⟨3_000_000_000⟩, .fire)]
    Run (withLimiter "q" l) ρ q ∧ "ns/a" ∈ (q.done "ns/a").queue ∧
      ((∃ t' g, (t', Deed.handOut g "ns/a") ∈ ρ.tail) ∨ "ns/a" ∈ q.dirty ∨
        ∃ due, q.waiting.get? "ns/a" = some due ∧
          due.nanos ≤ 0 + (Duration.ofSeconds 5).nanos) := by
  intro l q₁ q₂ q ρ
  have h₁ : Run (withLimiter "q" l) [(⟨0⟩, .addAfter "ns/a" (.ofSeconds 5))] q₁ :=
    .next .start (by simp) (.addAfter _ _)
  have h : Run (withLimiter "q" l) ρ q :=
    .next (.next h₁ (by simp) (.addAfter _ _)) (by simp) .fire
  obtain ⟨hkept, hplaced⟩ := add_not_lost h
  have hdirty : "ns/a" ∈ q.dirty := by decide +kernel
  exact ⟨h, (hplaced _ hdirty).2,
    hkept [] _ ⟨0⟩ _ "ns/a" (.ofSeconds 5) rfl (by simp [ρ]) rfl (.inr (by decide))⟩

/-- A limiter never fails, but the clock cannot show the end of its delay. A key that is added after
this delay is neither dirty nor does it wait, and no one has got it. -/
theorem addition_lost_beyond_clock :
    let l := RateLimiter.exponential (.ofSeconds (Nat.pow 2 64 - 1)) (.ofSeconds (Nat.pow 2 63))
    let q := ((withLimiter "q" l).addRateLimited "ns/a" ⟨0⟩).2
    Limiter.NeverFails l ∧ Run (withLimiter "q" l) [(⟨0⟩, .addRateLimited "ns/a")] q ∧
      Deed.delay? ⟨0⟩ (limiterAfter l []) "ns/a" (.addRateLimited "ns/a") =
        some (.ofSeconds (Nat.pow 2 63)) ∧
      ¬ ((∃ (t : Instant) (g : GetterId), (t, Deed.handOut g "ns/a") ∈ ([] : History)) ∨
        "ns/a" ∈ q.dirty ∨ ∃ due, q.waiting.get? "ns/a" = some due ∧
          due.nanos ≤ 0 + (Duration.ofSeconds (Nat.pow 2 63)).nanos) := by
  intro l q
  have hdirty : q.dirty = [] := by unfold q l; rfl
  have hwaiting : q.waiting.get? "ns/a" = none := by unfold q l; rfl
  refine ⟨RateLimiter.neverFails_exponential _ _, .next .start (by simp) (.addRateLimited _),
    by unfold l; rfl, ?_⟩
  rintro (⟨t, g, h⟩ | h | ⟨due, h, -⟩)
  · cases h
  · rw [hdirty] at h
    cases h
  · rw [hwaiting] at h
    cases h

end Prewarm.WorkQueue
