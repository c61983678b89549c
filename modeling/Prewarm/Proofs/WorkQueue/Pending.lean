import Prewarm.Proofs.Limiter
import Prewarm.Proofs.WorkQueue.Operations
import Prewarm.Store.Enqueue
import Prewarm.WorkQueue.Outcome

/-!
# Keys that wait for work

A key is pending if it is dirty or waits for an instant, and pending by an instant if it does not
wait beyond that one (`PendingBy`). An addition makes its key pending by the end of its delay
(`pendingBy_addAfter`), unless the clock cannot show that end or the queue shuts down. From then on
the key stays so until it is handed out (`PendingBy.ask`): additions that are merged only bring its
instant forward, the timer moves keys from those that wait to the dirty ones, and what is done with
other keys, or with this one while it is with a worker, does not matter. That a key is pending at
all follows.
-/

namespace Prewarm.WorkQueue

section
variable {L : Type} {q : WorkQueue L} {k x : Key} {now due : Instant}

/-- Whether a key needs work now, or waits for an instant that is not after another. -/
def PendingBy (due : Instant) (q : WorkQueue L) (k : Key) : Prop :=
  k ∈ q.dirty ∨ ∃ t, q.waiting.get? k = some t ∧ t.nanos ≤ due.nanos

/-- Whether a key needs work now or later. -/
def Pending (q : WorkQueue L) (k : Key) : Prop := k ∈ q.dirty ∨ (q.waiting.get? k).isSome

/-- A key that is pending by an instant is pending. -/
theorem PendingBy.pending (h : PendingBy due q k) : Pending q k :=
  h.imp_right fun ⟨_, ht, _⟩ => Option.isSome_iff_exists.2 ⟨_, ht⟩

/-- A pending key is pending by some instant. -/
theorem Pending.exists_pendingBy (h : Pending q k) : ∃ due, PendingBy due q k := by
  rcases h with h | h
  · exact ⟨⟨0⟩, .inl h⟩
  · obtain ⟨t, ht⟩ := Option.isSome_iff_exists.1 h
    exact ⟨t, .inr ⟨t, ht, Nat.le_refl _⟩⟩

/-- By when a key is pending is read off the dirty keys and those that wait. -/
theorem PendingBy.congr {q' : WorkQueue L} (h : PendingBy due q k) (hd : q'.dirty = q.dirty)
    (hw : q'.waiting = q.waiting) : PendingBy due q' k := by
  unfold PendingBy
  rw [hd, hw]
  exact h

/-- Whether a key is pending is read off the dirty keys and those that wait. -/
theorem Pending.congr {q' : WorkQueue L} (h : Pending q k) (hd : q'.dirty = q.dirty)
    (hw : q'.waiting = q.waiting) : Pending q' k := by
  obtain ⟨due, h⟩ := h.exists_pendingBy
  exact (h.congr hd hw).pending

/-- The earlier of two instants is not after the first. -/
theorem earlier_le_left (s t : Instant) : (s.earlier t).nanos ≤ s.nanos := by
  unfold Instant.earlier
  split <;> omega

/-- The earlier of two instants is not after the second. -/
theorem earlier_le_right (s t : Instant) : (s.earlier t).nanos ≤ t.nanos := by
  unfold Instant.earlier
  split <;> omega

/-! ## What makes a key pending -/

/-- A key that is added is dirty. -/
theorem mem_dirty_add (hs : q.shuttingDown = false) : k ∈ (q.add k).dirty := by
  rcases add_cases q k with ⟨h, he⟩ | ⟨-, -, -, he⟩ | ⟨-, -, -, he⟩ <;> rw [he]
  · exact h.resolve_left (by simp [hs])
  · exact mem_mark.2 (.inl rfl)
  · exact mem_mark.2 (.inl rfl)

/-- Every key of a list that is added is dirty. -/
theorem mem_dirty_foldl_add {ks : List Key} (hs : q.shuttingDown = false) (hk : k ∈ ks) :
    k ∈ (ks.foldl WorkQueue.add q).dirty := by
  induction ks generalizing q with
  | nil => cases hk
  | cons x ks ih =>
    have hs' : (q.add x).shuttingDown = false := (adds_add q x).shuttingDown.trans hs
    rcases List.mem_cons.1 hk with rfl | hk
    · exact (adds_foldl_add ks (q.add k)).dirty k (mem_dirty_add hs)
    · exact ih hs' hk

/-- A key that waits already waits no longer because it is added at one more instant. -/
theorem pendingBy_addAt (hs : q.shuttingDown = false) (due : Instant) :
    PendingBy due (q.addAt k due) k := by
  rcases addAt_cases q k due with ⟨h, he⟩ | ⟨-, -, w, ts, b, hw, he⟩ <;> rw [he]
  · exact .inl (h.resolve_left (by simp [hs]))
  · refine .inr ⟨_, (hw k).trans (if_pos rfl), ?_⟩
    cases q.waiting.get? k with
    | none => exact Nat.le_refl _
    | some t => exact earlier_le_right t due

/-- A key that is added after a delay is pending by the end of the delay, if the clock can show that
end. -/
theorem pendingBy_addAfter {d : Duration} (hs : q.shuttingDown = false)
    (hok : (q.addAfter k now d).1 = .ok ()) :
    PendingBy ⟨now.nanos + d.nanos⟩ (q.addAfter k now d).2 k := by
  rcases addAfter_cases q k now d with ⟨-, he⟩ | ⟨-, -, he⟩ | ⟨-, t, ht, he⟩ <;> rw [he] at hok ⊢
  · exact .inl (mem_dirty_add hs)
  · cases hok
  · unfold Instant.add? at ht
    split at ht
    · cases ht
      exact pendingBy_addAt hs _
    · cases ht

/-- A key that is added after the delay of the limiter is pending if the delay can be kept. -/
theorem pending_addRateLimited [Limiter L] (hs : q.shuttingDown = false)
    (hok : (q.addRateLimited k now).1 = .ok ()) : Pending (q.addRateLimited k now).2 k := by
  rcases addRateLimited_cases q k now with ⟨l, -, he⟩ | ⟨d, l, -, he⟩ <;> rw [he] at hok ⊢
  · cases hok
  · exact (pendingBy_addAfter (q := { q with limiter := l }) hs hok).pending

/-! ## What keeps a key pending -/

/-- An addition of a key, this one or another, does not put off a pending one. -/
theorem PendingBy.add (h : PendingBy due q k) (x : Key) : PendingBy due (q.add x) k :=
  h.imp ((adds_add q x).dirty k) fun h => by rwa [add_waiting]

/-- A key that is added at an instant does not put off a pending one, whichever of the two comes
first. -/
theorem PendingBy.addAt (h : PendingBy due q k) (x : Key) (t : Instant) :
    PendingBy due (q.addAt x t) k := by
  rcases addAt_cases q x t with ⟨-, he⟩ | ⟨-, -, w, ts, b, hw, he⟩ <;> rw [he]
  · exact h
  · refine h.imp_right fun ⟨s, hs, hle⟩ => ?_
    by_cases hx : k = x
    · subst hx
      refine ⟨s.earlier t, ?_, Nat.le_trans (earlier_le_left s t) hle⟩
      rw [hw, if_pos rfl, hs, Option.elim_some]
    · exact ⟨s, by rw [hw, if_neg hx, hs], hle⟩

/-- A key that is added after a delay does not put off a pending one. -/
theorem PendingBy.addAfter (h : PendingBy due q k) (x : Key) (now : Instant) (d : Duration) :
    PendingBy due (q.addAfter x now d).2 k := by
  rcases addAfter_cases q x now d with ⟨-, he⟩ | ⟨-, -, he⟩ | ⟨-, t, -, he⟩ <;> rw [he]
  · exact h.add x
  · exact h
  · exact h.addAt x t

/-- A key that is added after the delay of the limiter does not put off a pending one, even if the
limiter has no delay for it. -/
theorem PendingBy.addRateLimited [Limiter L] (h : PendingBy due q k) (x : Key) (now : Instant) :
    PendingBy due (q.addRateLimited x now).2 k := by
  rcases addRateLimited_cases q x now with ⟨l, -, he⟩ | ⟨d, l, -, he⟩ <;> rw [he]
  · exact h
  · exact PendingBy.addAfter (q := { q with limiter := l }) h x now d

/-- A run of the timer adds the keys that do not wait any more. -/
theorem PendingBy.runTimer (h : PendingBy due q k) (hs : q.shuttingDown = false) (now : Instant) :
    PendingBy due (q.runTimer now) k := by
  rcases runTimer_cases q now with he | ⟨hs', -⟩ | ⟨-, ts, r, b, he⟩
  · rwa [he]
  · rw [hs] at hs'
    cases hs'
  · rw [he]
    rcases h with h | ⟨t, ht, hle⟩
    · exact .inl ((adds_foldl_add _ _).dirty k h)
    · cases hr : t.reached now with
      | true => exact .inl (mem_dirty_foldl_add hs (mem_due.2 ⟨t, ht, hr⟩))
      | false =>
        refine .inr ⟨t, ?_, hle⟩
        simp [Table.get?_filter, ht, hr]

/-- One who asks for a key gets it, or the key stays pending. -/
theorem PendingBy.ask (h : PendingBy due q k) (g : GetterId) :
    (q.ask g).1 = .key k ∨ PendingBy due (q.ask g).2 k := by
  rcases ask_cases q g with ⟨-, he⟩ | ⟨-, -, he⟩ | ⟨-, x, ks, -, he⟩ <;> rw [he]
  · exact .inr h
  · exact .inr h
  · by_cases hx : x = k
    · exact .inl (congrArg Answer.key hx)
    · exact .inr (h.imp_left fun h => mem_unmark.2 ⟨h, Ne.symm hx⟩)

/-- A pending key stays pending when work on a key is done, be it this one. -/
theorem PendingBy.done (h : PendingBy due q k) (x : Key) : PendingBy due (q.done x) k := by
  obtain ⟨ks, ps, gs, he⟩ := done_eq q x
  rw [he]
  exact h

/-- A pending key stays pending when a key is added after the delay of the limiter. -/
theorem Pending.addRateLimited [Limiter L] (h : Pending q k) (x : Key) (now : Instant) :
    Pending (q.addRateLimited x now).2 k := by
  obtain ⟨due, h⟩ := h.exists_pendingBy
  exact (h.addRateLimited x now).pending

/-- A pending key stays pending when the timer runs. -/
theorem Pending.runTimer (h : Pending q k) (hs : q.shuttingDown = false) (now : Instant) :
    Pending (q.runTimer now) k := by
  obtain ⟨due, h⟩ := h.exists_pendingBy
  exact (h.runTimer hs now).pending

/-- One who asks for a key gets the pending one, or it stays pending. -/
theorem Pending.ask (h : Pending q k) (g : GetterId) :
    (q.ask g).1 = .key k ∨ Pending (q.ask g).2 k := by
  obtain ⟨due, h⟩ := h.exists_pendingBy
  exact (h.ask g).imp_right PendingBy.pending

/-- Work that is done on a key does not settle what has to be done on a pending one. -/
theorem Pending.done (h : Pending q k) (x : Key) : Pending (q.done x) k := by
  obtain ⟨due, h⟩ := h.exists_pendingBy
  exact (h.done x).pending

/-! ## Handing back and several additions -/

section
variable [Limiter L]

/-- A key that is handed back, with whatever outcome, leaves a pending one pending. -/
theorem Pending.handBack (h : Pending q k) (x : Key) (o : Outcome) (now : Instant) :
    Pending (q.handBack x o now).2 k := by
  unfold WorkQueue.handBack
  split
  · exact (h.done x).addRateLimited x now
  · exact (h.congr rfl rfl : Pending (q.forget x) k).done x

/-- A key that is to be worked on again is pending when it was handed back. -/
theorem pending_handBack {o : Outcome} (hs : q.shuttingDown = false) (ho : o.retries = true)
    (hok : (q.handBack k o now).1 = .ok ()) : Pending (q.handBack k o now).2 k := by
  unfold WorkQueue.handBack at hok ⊢
  rw [if_pos ho] at hok ⊢
  exact pending_addRateLimited ((done_shuttingDown q k).trans hs) hok

/-- What one addition after the delay of the limiter keeps, several of them keep. -/
theorem addAllRateLimited_keeps {P : WorkQueue L → Prop} (h : P q) (now : Instant)
    (hadd : ∀ q k, P q → P (q.addRateLimited k now).2) (ks : List Key) :
    P (q.addAllRateLimited now ks).2 := by
  induction ks generalizing q with
  | nil => exact h
  | cons x ks ih =>
    have hx := hadd q x h
    unfold WorkQueue.addAllRateLimited
    split
    · next hq => rw [hq] at hx; exact ih hx
    · next hq => rwa [hq] at hx

/-- Keys that changes put on the queue leave a pending one pending. -/
theorem Pending.addAllRateLimited {ks : List Key} (h : Pending q k) (now : Instant) :
    Pending (q.addAllRateLimited now ks).2 k :=
  addAllRateLimited_keeps (P := fun q => Pending q k) h now (fun _ x h => h.addRateLimited x now) ks

end

/-! ## Queues that take keys

A queue takes keys if it does not shut down. Its additions do not fail if its limiter is what one
has become that never fails and whose delays the clock can show. -/

section
variable [Limiter L] {l : L}

/-- A queue that does not shut down, with a limiter that `l` has become. -/
structure Takes (l : L) (q : WorkQueue L) : Prop where
  notShuttingDown : q.shuttingDown = false
  becomes : Limiter.Becomes l q.limiter

/-- A new queue takes keys. -/
theorem takes_withLimiter (name : String) (l : L) : Takes l (withLimiter name l) := ⟨rfl, .refl⟩

/-- Whether a queue takes keys depends on its limiter and on whether it shuts down. -/
theorem Takes.congr {q' : WorkQueue L} (h : Takes l q) (hs : q'.shuttingDown = q.shuttingDown)
    (hl : q'.limiter = q.limiter) : Takes l q' :=
  ⟨hs.trans h.notShuttingDown, hl ▸ h.becomes⟩

/-- A queue that takes keys does so after a key was added after the delay of the limiter. -/
theorem Takes.addRateLimited (h : Takes l q) (k : Key) (now : Instant) :
    Takes l (q.addRateLimited k now).2 := by
  have hl : Limiter.Becomes l (Limiter.delay k now q.limiter).2 := h.becomes.delay k now
  rcases addRateLimited_cases q k now with ⟨l', hl', he⟩ | ⟨d, l', hl', he⟩ <;>
    rw [hl'] at hl <;> rw [he]
  · exact ⟨h.notShuttingDown, hl⟩
  · have hadd := adds_addAfter { q with limiter := l' } k now d
    exact ⟨hadd.shuttingDown.trans h.notShuttingDown, hadd.limiter ▸ hl⟩

/-- A queue that takes keys does so after changes have put keys on it. -/
theorem Takes.addAllRateLimited {ks : List Key} (h : Takes l q) (now : Instant) :
    Takes l (q.addAllRateLimited now ks).2 :=
  addAllRateLimited_keeps (P := Takes l) h now (fun _ x h => h.addRateLimited x now) ks

/-- A queue that takes keys does so after one has asked for a key. -/
theorem Takes.ask (h : Takes l q) (g : GetterId) : Takes l (q.ask g).2 :=
  h.congr (ask_shuttingDown q g) (ask_limiter q g)

/-- A queue that takes keys does so after a key was handed back. -/
theorem Takes.handBack (h : Takes l q) (k : Key) (o : Outcome) (now : Instant) :
    Takes l (q.handBack k o now).2 := by
  unfold WorkQueue.handBack
  split
  · exact (h.congr (done_shuttingDown q k) (done_limiter q k)).addRateLimited k now
  · have hf : Takes l (q.forget k) := ⟨h.notShuttingDown, h.becomes.forget k⟩
    exact hf.congr (done_shuttingDown _ k) (done_limiter _ k)

/-- A queue that takes keys does so after a run of the timer. -/
theorem Takes.runTimer (h : Takes l q) (now : Instant) : Takes l (q.runTimer now) :=
  h.congr (adds_runTimer q now).shuttingDown (adds_runTimer q now).limiter

/-- An addition does not fail if the limiter has a delay and the clock can show its end. -/
theorem addRateLimited_ok_of_shown {d : Duration} (hd : (Limiter.delay k now q.limiter).1 = some d)
    (hshown : d = .zero ∨ (now.add? d).isSome = true) : (q.addRateLimited k now).1 = .ok () := by
  rcases addRateLimited_cases q k now with ⟨l', hl, -⟩ | ⟨d', l', hl, he⟩ <;> rw [hl] at hd <;>
    cases hd
  rw [he]
  rcases addAfter_cases { q with limiter := l' } k now d with ⟨-, he⟩ | ⟨hne, hn, -⟩ | ⟨-, t, -, he⟩
  · rw [he]
  · rw [hn] at hshown
    exact absurd (hshown.resolve_left hne) (by simp)
  · rw [he]

variable (hl : Limiter.NeverFails l) (ht : Limiter.ShownUntil now l)
include hl ht

/-- A key can be added after the delay of a limiter that never fails, if the clock can show the end
of the delay. -/
theorem addRateLimited_ok (hb : Limiter.Becomes l q.limiter) (k : Key) :
    (q.addRateLimited k now).1 = .ok () := by
  obtain ⟨d, hd⟩ := Option.ne_none_iff_exists'.1 (hl _ hb k now)
  exact addRateLimited_ok_of_shown hd (.inr (ht _ hb k now d (Nat.le_refl _) hd))

/-- A key can be handed back, whatever the outcome, if the limiter never fails and the clock can
show the end of its delay. -/
theorem handBack_ok (hb : Limiter.Becomes l q.limiter) (k : Key) (o : Outcome) :
    (q.handBack k o now).1 = .ok () := by
  unfold WorkQueue.handBack
  split
  · exact addRateLimited_ok hl ht ((done_limiter q k).symm ▸ hb) k
  · rfl

/-- Every key of a list that is added after the delays of the limiter is pending. -/
theorem Takes.pending_addAllRateLimited {ks : List Key} (h : Takes l q) (hk : k ∈ ks) :
    Pending (q.addAllRateLimited now ks).2 k := by
  induction ks generalizing q with
  | nil => cases hk
  | cons x ks ih =>
    have hok := addRateLimited_ok hl ht h.becomes x
    have hx := h.addRateLimited x now
    unfold WorkQueue.addAllRateLimited
    split
    · next q' hq =>
      rw [hq] at hx
      rcases List.mem_cons.1 hk with rfl | hk
      · have hp := pending_addRateLimited h.notShuttingDown hok
        rw [hq] at hp
        exact hp.addAllRateLimited now
      · exact ih hx hk
    · next hq =>
      rw [hq] at hok
      cases hok

end

end

end Prewarm.WorkQueue
