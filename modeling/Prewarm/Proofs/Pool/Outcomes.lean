import Prewarm.Proofs.Pool.Discipline
import Prewarm.Proofs.WorkQueue.Reruns
import Prewarm.Proofs.WorkQueue.ShutDown

/-!
# How outcomes are accounted for

One who gets a key works on it and then hands it back. What the key comes to is a matter of the
outcome and of what was done with the queue during the work. If the work is not to be done again the
key is forgotten, and it is pending only if someone else has seen to that. If it is to be done again
the key is pending in any case (`Requeued`). No other key is touched (`Untouched`). The account is
drawn up right after the key was handed back, before anyone asks for the next one
(`outcome_accounted`).

A queue that shuts down hands out nothing, so one who asks then ends without a key whatever stands
on the queue (`outcome_unaccounted`).
-/

namespace Prewarm

namespace WorkQueue

section
variable {L : Type} [Limiter L] {q q₁ q₂ : WorkQueue L} {k x : Key} {now : Instant} {d : Duration}
  {o : Outcome} {σ : History}

/-! ## The key that is handed back -/

/-- How a key comes back that was handed back to a queue to be added after a delay. -/
structure Requeued (k : Key) (now : Instant) (d : Duration) (q q' : WorkQueue L) : Prop where
  pending : Pending q' k
  /-- A key that became dirty during the work, or has no time to wait, stands on the queue. -/
  atOnce : k ∈ q.dirty ∨ d = .zero → k ∈ q'.queue
  later : k ∉ q.dirty → d ≠ .zero →
    ∃ due, q'.waiting.get? k = some due ∧ due.nanos ≤ now.nanos + d.nanos

omit [Limiter L] in
/-- A key that no worker has is on the queue after it is added. -/
theorem mem_queue_add (hs : q.shuttingDown = false) (hp : k ∉ q.processing)
    (hd : k ∈ q.dirty → k ∈ q.queue) : k ∈ (q.add k).queue := by
  rcases add_cases q k with ⟨h, he⟩ | ⟨-, -, hk, -⟩ | ⟨-, -, -, he⟩
  · rw [he]
    exact hd (h.resolve_left (by simp [hs]))
  · exact absurd hk hp
  · rw [he]
    exact List.mem_append_right _ (.head _)

omit [Limiter L] in
/-- A key that is added at an instant changes neither the queue nor what is dirty. -/
theorem addAt_eq (q : WorkQueue L) (k : Key) (due : Instant) :
    (q.addAt k due).queue = q.queue ∧ (q.addAt k due).dirty = q.dirty := by
  rcases addAt_cases q k due with ⟨-, he⟩ | ⟨-, -, w, ts, b, -, he⟩ <;> rw [he]
  · exact ⟨rfl, rfl⟩
  · exact ⟨rfl, rfl⟩

omit [Limiter L] in
/-- A key that no worker has comes back by an addition after a delay. -/
theorem addAfter_requeued (hs : q.shuttingDown = false) (hp : k ∉ q.processing)
    (hd : k ∈ q.dirty → k ∈ q.queue) (hok : (q.addAfter k now d).1 = .ok ()) :
    Requeued k now d q (q.addAfter k now d).2 := by
  have hby := pendingBy_addAfter hs hok
  rcases addAfter_cases q k now d with ⟨hzero, he⟩ | ⟨-, -, he⟩ | ⟨hne, t, -, he⟩ <;>
    rw [he] at hok hby ⊢
  · exact ⟨hby.pending, fun _ => mem_queue_add hs hp hd, fun _ h => absurd hzero h⟩
  · cases hok
  · obtain ⟨hqueue, hdirty⟩ := addAt_eq q k t
    refine ⟨hby.pending, fun h => ?_, fun hno _ => hby.resolve_left fun hk => hno ?_⟩
    · rw [hqueue]
      exact hd (h.resolve_right hne)
    · rwa [hdirty] at hk

/-- A key that is to be worked on again comes back if it can be handed back. -/
theorem handBack_requeued (ho : o.retries = true) (hs : q.shuttingDown = false)
    (hok : (q.handBack k o now).1 = .ok ()) :
    ∃ d, (Limiter.delay k now q.limiter).1 = some d ∧
      Requeued k now d q (q.handBack k o now).2 := by
  have hprocessing : k ∉ (q.done k).processing := fun h => (mem_processing_done.1 h).2 rfl
  have hqueue : k ∈ (q.done k).dirty → k ∈ (q.done k).queue := by
    rcases done_cases q k with ⟨hno, he⟩ | ⟨-, he⟩ <;> rw [he]
    · exact fun hk => absurd hk hno
    · exact fun _ => List.mem_append_right _ (.head _)
  unfold handBack at hok ⊢
  rw [if_pos ho] at hok ⊢
  rw [← done_limiter q k]
  rcases addRateLimited_cases (q.done k) k now with ⟨l, -, he⟩ | ⟨d, l, hl, he⟩ <;>
    rw [he] at hok ⊢
  · cases hok
  · have hback := addAfter_requeued (q := { q.done k with limiter := l })
      ((done_shuttingDown q k).trans hs) hprocessing hqueue hok
    exact ⟨d, congrArg Prod.fst hl, hback.pending, fun h => hback.atOnce (done_dirty q k ▸ h),
      fun h => hback.later (done_dirty q k ▸ h)⟩

/-- A key that is not to be worked on again is pending only if it was when it was handed back. -/
theorem pending_of_handBack (ho : o.retries = false) (h : Pending (q.handBack k o now).2 k) :
    Pending q k := by
  unfold handBack at h
  rw [if_neg (by simp [ho])] at h
  obtain ⟨ks, ps, gs, he⟩ := done_eq (q.forget k) k
  rw [he] at h
  exact h

/-- A key becomes pending only if it is added. -/
theorem Steps.pending_of (h : Steps q₁ σ q₂) (hk : Pending q₂ k) :
    Pending q₁ k ∨ ∃ e ∈ σ, e.2.Adds k := by
  induction h with
  | start => exact .inl hk
  | @next σ q q' now e _ hs ih =>
    by_cases he : e.Adds k
    · exact .inr ⟨(now, e), List.mem_append_right _ (.head _), he⟩
    · refine (ih (hs.pending_of he hk)).imp_right fun ⟨e', hmem, he'⟩ => ?_
      exact ⟨e', List.mem_append_left _ hmem, he'⟩

/-! ## The other keys -/

/-- Whether a key lies in two queues alike, and counts as added equally often. -/
structure Untouched (x : Key) (q q' : WorkQueue L) : Prop where
  queue : x ∈ q'.queue ↔ x ∈ q.queue
  dirty : x ∈ q'.dirty ↔ x ∈ q.dirty
  processing : x ∈ q'.processing ↔ x ∈ q.processing
  waiting : q'.waiting.get? x = q.waiting.get? x
  requeues : q'.requeues x = q.requeues x

theorem Untouched.refl (x : Key) (q : WorkQueue L) : Untouched x q q :=
  ⟨.rfl, .rfl, .rfl, rfl, rfl⟩

theorem Untouched.trans {q q' q'' : WorkQueue L} (h : Untouched x q q')
    (h' : Untouched x q' q'') : Untouched x q q'' :=
  ⟨h'.queue.trans h.queue, h'.dirty.trans h.dirty, h'.processing.trans h.processing,
    h'.waiting.trans h.waiting, h'.requeues.trans h.requeues⟩

/-- Work that is done on a key leaves the others alone. -/
theorem untouched_done (hx : x ≠ k) (q : WorkQueue L) : Untouched x q (q.done k) := by
  have hne : ∀ ps : List Key, x ∈ unmark k ps ↔ x ∈ ps := fun ps => by simp [hx]
  rcases done_cases q k with ⟨-, he⟩ | ⟨-, he⟩ <;> rw [he]
  · exact ⟨.rfl, .rfl, hne _, rfl, rfl⟩
  · exact ⟨by simp [hx], .rfl, hne _, rfl, rfl⟩

/-- A key that is added leaves the others alone. -/
theorem untouched_add (hx : x ≠ k) (q : WorkQueue L) : Untouched x q (q.add k) := by
  have hne : x ∈ mark k q.dirty ↔ x ∈ q.dirty := by simp [hx]
  rcases add_cases q k with ⟨-, he⟩ | ⟨-, -, -, he⟩ | ⟨-, -, -, he⟩ <;> rw [he]
  · exact .refl x q
  · exact ⟨.rfl, hne, .rfl, rfl, rfl⟩
  · exact ⟨by simp [hx], hne, .rfl, rfl, rfl⟩

/-- A key that is added after a delay leaves the others alone. -/
theorem untouched_addAfter (hx : x ≠ k) (q : WorkQueue L) (now : Instant) (d : Duration) :
    Untouched x q (q.addAfter k now d).2 := by
  rcases addAfter_cases q k now d with ⟨-, he⟩ | ⟨-, -, he⟩ | ⟨-, t, -, he⟩ <;> rw [he]
  · exact untouched_add hx q
  · exact .refl x q
  · rcases addAt_cases q k t with ⟨-, he⟩ | ⟨-, -, w, ts, b, hw, he⟩ <;> rw [he]
    · exact .refl x q
    · exact ⟨.rfl, .rfl, .rfl, (hw x).trans (if_neg hx), rfl⟩

/-- A key that is added after the delay of the limiter leaves the others alone. -/
theorem untouched_addRateLimited (hx : x ≠ k) (q : WorkQueue) (now : Instant) :
    Untouched x q (q.addRateLimited k now).2 := by
  have hlimiter : Untouched x q { q with limiter := (Limiter.delay k now q.limiter).2 } :=
    ⟨.rfl, .rfl, .rfl, rfl, RateLimiter.count_delay_of_ne hx now q.limiter⟩
  rcases addRateLimited_cases q k now with ⟨l, hl, he⟩ | ⟨d, l, hl, he⟩ <;>
    rw [hl] at hlimiter <;> rw [he]
  · exact hlimiter
  · exact hlimiter.trans (untouched_addAfter hx _ now d)

/-- To hand a key back does not touch another one. -/
theorem untouched_handBack (hx : x ≠ k) (q : WorkQueue) (o : Outcome) (now : Instant) :
    Untouched x q (q.handBack k o now).2 := by
  unfold handBack
  split
  · exact (untouched_done hx q).trans (untouched_addRateLimited hx (q.done k) now)
  · have hforget : Untouched x q (q.forget k) :=
      ⟨.rfl, .rfl, .rfl, rfl, (RateLimiter.count_forget k x q.limiter).trans (if_neg hx)⟩
    exact hforget.trans (untouched_done hx (q.forget k))

/-- A key that is not to be worked on again counts as never added. -/
theorem requeues_handBack (ho : o.retries = false) (q : WorkQueue) (k : Key) (now : Instant) :
    (q.handBack k o now).2.requeues k = 0 := by
  unfold handBack requeues
  rw [if_neg (by simp [ho])]
  dsimp only
  rw [done_limiter]
  exact (RateLimiter.count_forget k k q.limiter).trans (if_pos rfl)

end

end WorkQueue

namespace Pool

section
variable {ω ρ : Type} {c : Craft ω ρ} {p p₂ : Pool ω ρ} {g : GetterId} {r : Role} {k : Key}
  {ks : List Key} {o : Outcome} {name : String} {l : RateLimiter} {τ σ : WorkQueue.History}

/-- One who asks while a key stands on the queue gets the first one, and work on it is to begin. -/
theorem perform_ask_head (c : Craft ω ρ) (hopen : p.queue.shuttingDown = false)
    (hk : p.queue.queue = k :: ks) (hr : r ≠ .keeper)
    (hg : p.takers.get? g = some ⟨r, .asking⟩) :
    WorkQueue.Step p.now p.queue (.handOut g k) (perform c p (.ask g)).queue ∧
      (perform c p (.ask g)).takers.get? g = some ⟨r, .working k⟩ ∧
      .start g k ∈ (perform c p (.ask g)).line := by
  have hask : p.queue.ask g = (.key k, (p.queue.ask g).2) := by
    rcases WorkQueue.ask_cases p.queue g with ⟨hs, -⟩ | ⟨-, hnil, -⟩ | ⟨-, k', ks', hq, he⟩
    · simp [hopen] at hs
    · simp [hk] at hnil
    · cases hk.symm.trans hq
      rw [he]
  have hperform : perform c p (.ask g) = askFor c p g r := by
    simp only [perform, hg]
  have hstart : .start g k ∈ (askFor c p g r).line := by
    unfold askFor
    rw [hask]
    cases r with
    | keeper => exact absurd rfl hr
    | helper | worker => exact List.mem_append_right _ (.head _)
  obtain ⟨-, hqueue, htakers⟩ := askFor_cases c p g hr
  obtain ⟨k', hk', ht⟩ := htakers.resolve_right fun h => h.1 k (congrArg Prod.fst hask)
  cases (congrArg Prod.fst hask).symm.trans hk'
  rw [hperform, ht, hqueue, Table.get?_insert]
  exact ⟨.handOut hask, if_pos rfl, hstart⟩

/-- Whether one who takes keys has handled the outcome of its work, which makes `p'` of a pool
before it goes on: a helper ends with a key, and a worker asks for the next one. -/
def Handled (c : Craft ω ρ) (p : Pool ω ρ) (g : GetterId) (o : Outcome) (p' : Pool ω ρ) : Prop :=
  p'.takers.get? g = some ⟨.helper, .ended true⟩ ∧ perform c p (.finish g o) = p' ∨
    p'.takers.get? g = some ⟨.worker, .asking⟩ ∧
      perform c p (.finish g o) = askFor c p' g .worker

/-- One whose key can be handed back handles the outcome. -/
theorem exists_handled (c : Craft ω ρ) (hr : r ≠ .keeper)
    (hg : p.takers.get? g = some ⟨r, .working k⟩)
    (hok : (p.queue.handBack k o p.now).1 = .ok ()) :
    ∃ p', Handled c p g o p' ∧ p'.queue = (p.queue.handBack k o p.now).2 := by
  rcases finish_cases c o hg with ⟨e, he⟩ | ⟨-, p', -, hq, ⟨rfl, ht, hf⟩ | ⟨hne, ht, hf⟩⟩
  · rw [hok] at he
    cases he
  · refine ⟨p', .inr ⟨?_, hf⟩, hq⟩
    rw [ht, Table.get?_insert_self]
  · refine ⟨p', .inl ⟨?_, hf⟩, hq⟩
    cases r with
    | keeper => exact absurd rfl hr
    | worker => exact absurd rfl hne
    | helper => rw [ht, Table.get?_insert_self]

/-- **What becomes of a key after work on it.** At any queue that does not shut down, whatever was
done with it before, one who asks gets the key at the head and work on it begins. Whatever is done
with the queue until the work has ended, and if the limiter does not fail and the clock can show the
end of the delay of a key that is worked on again, the outcome is handled, and then: no worker has
the key. If it is not to be worked on again it counts as never added, and is pending only if it
waited when it was handed out or was added during the work. Otherwise it is pending, unless the
queue shuts down: on the queue, if it became dirty during the work or the limiter has no delay for
it, and else waiting until no later than the end of the delay. No other key is touched. -/
theorem outcome_accounted (hbefore : WorkQueue.Steps (.withLimiter name l) τ p.queue)
    (hopen : p.queue.shuttingDown = false) (hk : p.queue.queue = k :: ks) (hr : r ≠ .keeper)
    (hg : p.takers.get? g = some ⟨r, .asking⟩)
    (hduring : WorkQueue.Steps (perform c p (.ask g)).queue σ p₂.queue)
    (hsame : p₂.takers.get? g = (perform c p (.ask g)).takers.get? g)
    (hl : Limiter.NeverFails l)
    (hshown : o.retries = true → ∀ d, (Limiter.delay k p₂.now p₂.queue.limiter).1 = some d →
      d = .zero ∨ (p₂.now.add? d).isSome = true) :
    p₂.takers.get? g = some ⟨r, .working k⟩ ∧ .start g k ∈ (perform c p (.ask g)).line ∧
    ∃ p₃, Handled c p₂ g o p₃ ∧ k ∉ p₃.queue.processing ∧
      (o.retries = false → p₃.queue.requeues k = 0 ∧ (WorkQueue.Pending p₃.queue k →
        (p.queue.waiting.get? k).isSome = true ∨ ∃ e ∈ σ, e.2.Adds k)) ∧
      (o.retries = true → p₂.queue.shuttingDown = false → ∃ d,
        (Limiter.delay k p₂.now p₂.queue.limiter).1 = some d ∧
          WorkQueue.Requeued k p₂.now d p₂.queue p₃.queue) ∧
      ∀ x ≠ k, WorkQueue.Untouched x p₂.queue p₃.queue := by
  obtain ⟨hout, hworks, hstart⟩ := perform_ask_head c hopen hk hr hg
  rw [← hsame] at hworks
  have hbecomes : Limiter.Becomes l p₂.queue.limiter :=
    hbefore.becomes.trans (hout.becomes.trans hduring.becomes)
  obtain ⟨d, hd⟩ := Option.ne_none_iff_exists'.1 (hl _ hbecomes k p₂.now)
  have hok : (p₂.queue.handBack k o p₂.now).1 = .ok () := by
    unfold WorkQueue.handBack
    split
    · next ho =>
      rw [← WorkQueue.done_limiter p₂.queue k] at hd hshown
      exact WorkQueue.addRateLimited_ok_of_shown hd (hshown ho d hd)
    · rfl
  obtain ⟨p₃, hhandled, hq⟩ := exists_handled c hr hworks hok
  refine ⟨hworks, hstart, p₃, hhandled, ?_, fun ho => ⟨?_, fun hp => ?_⟩, fun ho hs => ?_,
    fun x hx => ?_⟩
  · rw [hq, WorkQueue.mem_processing_handBack]
    exact fun h => h.2 rfl
  · exact hq ▸ WorkQueue.requeues_handBack ho p₂.queue k p₂.now
  · -- a key that was just handed out is not dirty, so if it is pending it waited before that
    obtain ⟨-, hdirty, hwaiting⟩ := hout.handOut_eq
    rw [hq] at hp
    rw [← hwaiting]
    exact (hduring.pending_of (WorkQueue.pending_of_handBack ho hp)).imp_left fun h =>
      h.resolve_left hdirty
  · exact hq ▸ WorkQueue.handBack_requeued ho hs hok
  · exact hq ▸ WorkQueue.untouched_handBack hx p₂.queue o p₂.now

end

/-- A pool in which a helper is to ask for a key. -/
def helperAt (q : WorkQueue) : Pool Unit Unit :=
  (({ now := ⟨0⟩, queue := q, world := () } : Pool Unit Unit).join .helper).2

/-- A key that also waits is worked on. It is added during the work, which then breaks off, and is
on the queue right after that. -/
theorem outcome_accounted_changed :
    let l := RateLimiter.exponential (.ofMillis 5) (.ofSeconds 1000)
    let q := ((WorkQueue.withLimiter "q" l).addAfter "ns/a" ⟨0⟩ (.ofSeconds 5)).2
    let p := helperAt ((q.add "ns/a").add "ns/b")
    let p₁ := perform flaky p (.ask 0)
    let p₂ := { p₁ with queue := p₁.queue.add "ns/a" }
    ∃ p₃, Handled flaky p₂ 0 .crash p₃ ∧ "ns/a" ∉ p₃.queue.processing ∧
      "ns/a" ∈ p₃.queue.queue ∧ "ns/b" ∈ p₃.queue.queue := by
  intro l q p p₁ p₂
  have hbefore : WorkQueue.Steps (.withLimiter "q" l) [(⟨0⟩, .addAfter "ns/a" (.ofSeconds 5)),
      (⟨0⟩, .add "ns/a"), (⟨0⟩, .add "ns/b")] p.queue :=
    .next (.next (.next .start (.addAfter _ _)) (.add _)) (.add _)
  have hk : p.queue.queue = ["ns/a", "ns/b"] := by decide +kernel
  have hg : p.takers.get? 0 = some ⟨.helper, .asking⟩ := by decide +kernel
  have hduring : WorkQueue.Steps p₁.queue [(⟨0⟩, .add "ns/a")] p₂.queue := .next .start (.add _)
  have hdelay : (Limiter.delay "ns/a" p₂.now p₂.queue.limiter).1 = some (.ofMillis 5) := by
    decide +kernel
  obtain ⟨-, -, p₃, hhandled, hprocessing, -, hretried, hothers⟩ :=
    outcome_accounted (c := flaky) (o := .crash) hbefore (by decide +kernel) hk (by decide) hg
      hduring rfl (RateLimiter.neverFails_exponential _ _) fun _ d hd =>
        .inr (Option.some.inj (hdelay.symm.trans hd) ▸ by decide +kernel)
  obtain ⟨d, -, hrequeued⟩ := hretried rfl (by decide +kernel)
  exact ⟨p₃, hhandled, hprocessing, hrequeued.atOnce (.inl (by decide +kernel)),
    (hothers "ns/b" (by decide)).queue.2 (by decide +kernel)⟩

/-- A key stands at the head of a queue that shuts down: the helper who asks ends without a key. -/
theorem outcome_unaccounted :
    let l := RateLimiter.exponential (.ofMillis 5) (.ofSeconds 1000)
    let q := (WorkQueue.withLimiter "q" l).add "ns/a"
    Limiter.NeverFails l ∧
      WorkQueue.Run (.withLimiter "q" l) [(⟨0⟩, .add "ns/a"), (⟨0⟩, .shutDown)] q.shutDown ∧
      q.shutDown.queue = ["ns/a"] ∧
      (perform flaky (helperAt q.shutDown) (.ask 0)).takers.get? 0 =
        some ⟨.helper, .ended false⟩ := by
  intro l q
  have hrun : WorkQueue.Run (.withLimiter "q" l) [(⟨0⟩, .add "ns/a")] q :=
    .next .start (by simp) (.add _)
  refine ⟨RateLimiter.neverFails_exponential _ _, hrun.next (by simp) .shutDown, rfl, ?_⟩
  decide +kernel

end Pool

end Prewarm
