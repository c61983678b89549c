import Prewarm.Proofs.WorkQueue.Exclusive

/-!
# Queues that shut down

A queue that was told to shut down hands out no more keys. No key waits for its instant, no one who
asks for a key is asleep, and no key becomes dirty (`Shut`, `Rests`), and that stays so whatever is
done with the queue (`Steps.rests`): by clients who keep their promises or by others, in any order
and at any instants.

Each deed has one result (`Step.unique`), so what is done with a queue after some point is known
from the histories until then and to the end (`Run.steps_after`).
-/

namespace Prewarm.WorkQueue

section
variable {L : Type} {q q₁ q₂ q' : WorkQueue L} {now : Instant} {k : Key}

/-! ## Shut queues -/

/-- A queue that shuts down, at which no key waits for its instant and no one for a key. -/
structure Shut (q : WorkQueue L) : Prop where
  shuttingDown : q.shuttingDown = true
  waiting : q.waiting = .empty
  asleep : q.getters.asleep = []

/-- A shut queue stays shut, no key becomes dirty, and no one is called. -/
structure Rests (q q' : WorkQueue L) : Prop where
  shut : Shut q'
  dirty : q'.dirty = q.dirty
  woken : ∀ c ∈ q'.getters.woken, c ∈ q.getters.woken

/-- A queue that was shut down is shut. -/
theorem shut_shutDown (q : WorkQueue L) : Shut q.shutDown where
  shuttingDown := shutDown_shuttingDown q
  waiting := shutDown_waiting q
  asleep := congrArg Wakeups.asleep (shutDown_getters q)

/-- A call finds no one asleep. -/
theorem callOne_of_asleep_nil {w : Wakeups} (h : w.asleep = []) :
    w.callOne = { w with permit := true } := by
  unfold Wakeups.callOne
  rw [h]

/-- One who leaves where no one is asleep wakes no one. -/
theorem leave_of_asleep_nil {w : Wakeups} (h : w.asleep = []) (g : GetterId) :
    (w.leave g).asleep = [] ∧ ∀ c ∈ (w.leave g).woken, c ∈ w.woken := by
  have hnone : w.asleep.filter (· ≠ g) = [] := by rw [h, List.filter_nil]
  have hmem : ∀ c ∈ w.woken.filter (·.1 ≠ g), c ∈ w.woken := fun c hc => (List.mem_filter.1 hc).1
  unfold Wakeups.leave
  dsimp only
  split
  · rw [callOne_of_asleep_nil hnone]
    exact ⟨hnone, hmem⟩
  · exact ⟨hnone, hmem⟩

/-- A shut queue that rests twice rests. -/
theorem Rests.trans (h : Rests q q₁) (h' : Rests q₁ q₂) : Rests q q₂ :=
  ⟨h'.shut, h'.dirty.trans h.dirty, fun c hc => h.woken c (h'.woken c hc)⟩

namespace Shut

theorem rests_refl (h : Shut q) : Rests q q := ⟨h, rfl, fun _ => id⟩

/-- A shut queue takes no key. -/
theorem add_eq (h : Shut q) (k : Key) : q.add k = q := if_pos (.inl h.shuttingDown)

/-- A shut queue takes no key after a delay either. -/
theorem addAfter_eq (h : Shut q) (k : Key) (now : Instant) (d : Duration) :
    (q.addAfter k now d).2 = q := by
  rcases addAfter_cases q k now d with ⟨-, he⟩ | ⟨-, -, he⟩ | ⟨-, t, -, he⟩ <;> rw [he]
  · exact h.add_eq k
  · exact if_pos (.inl h.shuttingDown)

/-- Everyone who asks a shut queue for a key is told that there are none any more. -/
theorem ask_eq (h : Shut q) (g : GetterId) :
    q.ask g = (.closed, { q with getters := q.getters.run g }) :=
  if_pos h.shuttingDown

/-- A key that is dirty when it is done goes back on the queue, and no one is there to be called. -/
theorem done_eq (h : Shut q) (k : Key) : ∃ ks b, q.done k =
    { q with
      processing := unmark k q.processing
      queue := ks
      getters := { q.getters with permit := b } } := by
  rcases done_cases q k with ⟨-, he⟩ | ⟨-, he⟩ <;> rw [he]
  · exact ⟨q.queue, q.getters.permit, rfl⟩
  · rw [callOne_of_asleep_nil h.asleep]
    exact ⟨_, true, rfl⟩

/-- All who wait were called already. -/
theorem shutDown_eq (h : Shut q) : q.shutDown = q.callTimer := by
  have hcall : q.getters.callAll = q.getters := by
    rw [Wakeups.callAll, h.asleep, List.map_nil, List.append_nil, ← h.asleep]
  unfold WorkQueue.shutDown
  rw [hcall, ← h.shuttingDown, ← h.waiting]

/-- A run of the timer that is ready ends. -/
theorem runTimer_eq (h : Shut q) (now : Instant) :
    q.runTimer now = q ∧ .ready ∉ q.timers ∨
      q.runTimer now = { q with timers := dropReady q.timers, timerRunning := false } ∧
        .ready ∈ q.timers := by
  unfold runTimer
  split
  · next hr => exact .inr ⟨if_pos h.shuttingDown, hr⟩
  · next hr => exact .inl ⟨rfl, hr⟩

end Shut

end

section
variable {L : Type} [Limiter L] {q q₀ q₁ q₂ q' : WorkQueue L} {now : Instant} {e : Deed}
  {g : GetterId} {k : Key} {σ τ : History}

/-! ## Deeds of anyone -/

/-- What was done with a queue, by clients that promise nothing, with the queue it leads to. -/
inductive Steps (q₀ : WorkQueue L) : History → WorkQueue L → Prop
  | start : Steps q₀ [] q₀
  | next {τ : History} {q q' : WorkQueue L} {now : Instant} {e : Deed} :
      Steps q₀ τ q → Step now q e q' → Steps q₀ (τ ++ [(now, e)]) q'

/-- What clients do who keep their promise can be done. -/
theorem Run.steps (h : Run q₀ τ q) : Steps q₀ τ q := by
  induction h with
  | start => exact .start
  | next _ _ hs ih => exact ih.next hs

/-- The limiter has come of delays and resets, whatever clients promise. -/
theorem Steps.becomes (h : Steps q₀ τ q) : Limiter.Becomes q₀.limiter q.limiter := by
  induction h with
  | start => exact .refl
  | next _ hs ih => exact ih.trans hs.becomes

/-- Each deed has one result. -/
theorem Step.unique (h : Step now q e q₁) (h' : Step now q e q₂) : q₁ = q₂ := by
  cases h with
  | @handOut g k q₁ h =>
    cases h' with
    | handOut h' => exact congrArg Prod.snd (h.symm.trans h')
  | @turnAway g a q₁ h _ =>
    cases h' with
    | turnAway h' _ => exact congrArg Prod.snd (h.symm.trans h')
  | add | addAfter | addRateLimited | leave | done | forget | shutDown | tick | fire =>
    cases h'
    rfl

/-- A history can be cut in two, with a queue between. -/
theorem Steps.split (h : Steps q₀ (τ ++ σ) q') : ∃ q, Steps q₀ τ q ∧ Steps q σ q' := by
  generalize hρ : τ ++ σ = ρ at h
  induction h generalizing σ with
  | start =>
    obtain ⟨rfl, rfl⟩ := List.append_eq_nil_iff.1 hρ
    exact ⟨q₀, .start, .start⟩
  | @next ρ q₁ q₂ now e hrun hs ih =>
    rcases List.eq_nil_or_concat σ with rfl | ⟨σ, e', rfl⟩
    · rw [List.append_nil] at hρ
      exact ⟨q₂, hρ ▸ hrun.next hs, .start⟩
    · rw [List.concat_eq_append, ← List.append_assoc] at hρ
      obtain ⟨rfl, he⟩ := List.append_inj' hρ rfl
      cases he
      obtain ⟨q, hq, hrest⟩ := ih rfl
      exact ⟨q, hq, by rw [List.concat_eq_append]; exact hrest.next hs⟩

/-- What was done with a queue determines it. -/
theorem Steps.unique (h : Steps q₀ τ q₁) (h' : Steps q₀ τ q₂) : q₁ = q₂ := by
  induction h generalizing q₂ with
  | start =>
    generalize hτ : ([] : History) = ρ at h'
    cases h' with
    | start => rfl
    | next => simp at hτ
  | @next τ q q' now e _ hs ih =>
    generalize hρ : τ ++ [(now, e)] = ρ at h'
    cases h' with
    | start => simp at hρ
    | next h' hs' =>
      obtain ⟨rfl, he⟩ := List.append_inj' hρ rfl
      cases he
      cases ih h'
      exact hs.unique hs'

/-- What was done after a part of a run led from the queue after that part to the queue at the
end. -/
theorem Run.steps_after (h : Run q₀ τ q) (h' : Run q₀ (τ ++ σ) q') : Steps q σ q' := by
  obtain ⟨q₁, h₁, hσ⟩ := h'.steps.split
  rwa [h.steps.unique h₁]

/-! ## What is done with a shut queue -/

/-- Only the limiter takes note of an addition. -/
theorem Shut.addRateLimited_eq (h : Shut q) (k : Key) (now : Instant) :
    ∃ l, (q.addRateLimited k now).2 = { q with limiter := l } := by
  rcases addRateLimited_cases q k now with ⟨l, -, he⟩ | ⟨d, l, -, he⟩ <;> rw [he]
  · exact ⟨l, rfl⟩
  · have hl : Shut { q with limiter := l } := ⟨h.shuttingDown, h.waiting, h.asleep⟩
    exact ⟨l, hl.addAfter_eq k now d⟩

/-- Whatever is done with a shut queue, it rests. -/
theorem Step.rests (hs : Step now q e q') (h : Shut q) : Rests q q' := by
  have hframe : ∀ {q' : WorkQueue L}, q'.shuttingDown = q.shuttingDown → q'.waiting = q.waiting →
      q'.dirty = q.dirty → q'.getters.asleep = q.getters.asleep →
      (∀ c ∈ q'.getters.woken, c ∈ q.getters.woken) → Rests q q' :=
    fun h₁ h₂ h₃ h₄ h₅ =>
      ⟨⟨h₁.trans h.shuttingDown, h₂.trans h.waiting, h₄.trans h.asleep⟩, h₃, h₅⟩
  cases hs with
  | add k => exact (h.add_eq k).symm ▸ h.rests_refl
  | addAfter k d => exact (h.addAfter_eq k now d).symm ▸ h.rests_refl
  | addRateLimited k =>
    obtain ⟨l, he⟩ := h.addRateLimited_eq k now
    exact he ▸ hframe rfl rfl rfl rfl fun _ => id
  | @handOut g k q' ha =>
    rw [h.ask_eq g] at ha
    cases ha
  | @turnAway g a q' ha _ =>
    rw [h.ask_eq g] at ha
    cases ha
    exact hframe rfl rfl rfl (by simp [Wakeups.run, h.asleep]) fun c hc => (List.mem_filter.1 hc).1
  | leave g =>
    obtain ⟨ha, hw⟩ := leave_of_asleep_nil h.asleep g
    exact hframe rfl rfl rfl (ha.trans h.asleep.symm) hw
  | done k =>
    obtain ⟨ks, b, he⟩ := h.done_eq k
    exact he ▸ hframe rfl rfl rfl rfl fun _ => id
  | forget | tick => exact hframe rfl rfl rfl rfl fun _ => id
  | shutDown =>
    obtain ⟨ts, b, he⟩ := callTimer_eq q
    rw [h.shutDown_eq, he]
    exact hframe rfl rfl rfl rfl fun _ => id
  | fire =>
    rcases h.runTimer_eq now with ⟨he, -⟩ | ⟨he, -⟩ <;> rw [he]
    · exact h.rests_refl
    · exact hframe rfl rfl rfl rfl fun _ => id

/-- Whatever is done with a shut queue, it rests. -/
theorem Steps.rests (hs : Steps q σ q') (h : Shut q) : Rests q q' := by
  induction hs with
  | start => exact h.rests_refl
  | next _ hs ih => exact ih.trans (hs.rests ih.shut)

/-- A shut queue hands out no key. -/
theorem Shut.not_handOut (h : Shut q) : ¬ Step now q (.handOut g k) q' := by
  intro hs
  cases hs with
  | handOut ha =>
    rw [h.ask_eq g] at ha
    cases ha

/-- A shut queue hands no key out. -/
theorem Steps.not_handOut (hs : Steps q σ q') (h : Shut q) (t : Instant) (g : GetterId) (k : Key) :
    (t, .handOut g k) ∉ σ := by
  induction hs with
  | start => exact List.not_mem_nil
  | next hs hstep ih =>
    intro hmem
    rcases List.mem_append.1 hmem with hmem | hmem
    · exact ih hmem
    · cases List.mem_singleton.1 hmem
      exact (hs.rests h).shut.not_handOut hstep

/-- The keys that workers have when a queue is shut are done once each, but for those that workers
still have. -/
theorem Run.dones_after {name : String} {l : L} (h : Run (withLimiter name l) τ q) (hq : Shut q)
    (h' : Run (withLimiter name l) (τ ++ σ) q') (k : Key) :
    dones k σ + (if k ∈ q'.processing then 1 else 0) = if k ∈ q.processing then 1 else 0 := by
  have hnone : handOuts k σ = 0 := by
    refine List.countP_eq_zero.2 fun e he => ?_
    obtain ⟨t, d⟩ := e
    cases d with
    | handOut g x => exact absurd he ((h.steps_after h').not_handOut hq t g x)
    | _ => simp
  have hcount : ∀ {τ : History} {q : WorkQueue L}, Run (withLimiter name l) τ q →
      handOuts k τ = dones k τ + if k ∈ q.processing then 1 else 0 := fun {τ q} h => by
    obtain ⟨-, hledger⟩ := h.invariant (exclusive_withLimiter name l) ⟨.nil, fun _ => .rfl⟩
    rw [h.handOuts_eq k, hledger.nodup.count]
    simp only [hledger.mem]
  have hbefore := hcount h
  have hafter := hcount h'
  unfold handOuts dones at *
  rw [List.countP_append, List.countP_append] at hafter
  omega

end

end Prewarm.WorkQueue
