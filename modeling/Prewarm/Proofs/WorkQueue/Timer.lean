import Prewarm.Proofs.WorkQueue.Additions

/-!
# The timer of a work queue

The timer of a queue is a run that is started when a key begins to wait, parks until the earliest
instant that a key waits for, and ends when no key waits any more. There is never more than one, and
a parked one is never parked too long (`Tended`): whatever brings an instant forward makes it ready.
Every operation keeps this (`Tended.step`, `Tended.tick`), so that a queue whose timer is not ready
is looked after.

How the instant of one key moves is said by `Moves`: it is the earliest that was asked for, until
the key does not wait any more.
-/

namespace Prewarm.WorkQueue

section
variable {L : Type} {q q' : WorkQueue L} {k x : Key} {now due t : Instant} {e : Deed}

/-! ## The next instant -/

/-- An instant that a key waits for, and none waits for an earlier one. -/
structure IsNextDue (q : WorkQueue L) (t : Instant) : Prop where
  exists_key : ∃ k, q.waiting.get? k = some t
  le : ∀ k u, q.waiting.get? k = some u → t.nanos ≤ u.nanos

/-- The earlier of two, taken through a list of instants, is one of them and not after any. -/
theorem foldl_earlier (t : Instant) (ts : List Instant) :
    ts.foldl Instant.earlier t ∈ t :: ts ∧
      ∀ u ∈ t :: ts, (ts.foldl Instant.earlier t).nanos ≤ u.nanos := by
  induction ts generalizing t with
  | nil => simp
  | cons u ts ih =>
    obtain ⟨hmem, hle⟩ := ih (t.earlier u)
    have hfirst := hle _ List.mem_cons_self
    refine ⟨?_, fun v hv => ?_⟩
    · rcases List.mem_cons.1 hmem with heq | hmem
      · rw [List.foldl_cons, heq, Instant.earlier]
        split <;> simp
      · exact List.mem_cons_of_mem _ (List.mem_cons_of_mem _ hmem)
    · rw [List.foldl_cons]
      rcases List.mem_cons.1 hv with rfl | hv
      · exact Nat.le_trans hfirst (earlier_le_left v u)
      · rcases List.mem_cons.1 hv with rfl | hv
        · exact Nat.le_trans hfirst (earlier_le_right t v)
        · exact hle v (List.mem_cons_of_mem _ hv)

/-- Without a next instant no key waits. -/
theorem get?_of_nextDue?_none (h : q.nextDue? = none) (k : Key) : q.waiting.get? k = none := by
  unfold nextDue? at h
  split at h
  · next hnil =>
    cases hk : q.waiting.get? k with
    | none => rfl
    | some t =>
      have hmem := Table.mem_values_iff.2 ⟨k, hk⟩
      rw [hnil] at hmem
      cases hmem
  · cases h

/-- The next instant is one that a key waits for, and none waits for an earlier one. -/
theorem isNextDue_of_nextDue? (h : q.nextDue? = some t) : q.IsNextDue t := by
  unfold nextDue? at h
  split at h
  · cases h
  · next u us hvalues =>
    cases h
    obtain ⟨hmem, hle⟩ := foldl_earlier u us
    rw [← hvalues] at hmem hle
    exact ⟨Table.mem_values_iff.1 hmem, fun k v hv => hle v (Table.mem_values_iff.2 ⟨k, hv⟩)⟩

/-! ## A timer that looks after the keys -/

/-- At a queue that shuts down no key waits. -/
def Closed (q : WorkQueue L) : Prop := q.shuttingDown = true → ∀ k, q.waiting.get? k = none

/-- How the timer of a queue stands: there is none and no key waits, or one run of it is ready, or
one is parked until the earliest instant, which is ahead. -/
inductive Tended (now : Instant) (q : WorkQueue L) : Prop
  | idle : q.timerRunning = false → q.timers = [] → (∀ k, q.waiting.get? k = none) → Tended now q
  | ready : q.timerRunning = true → q.timers = [.ready] → Tended now q
  | parked {t : Instant} : q.timerRunning = true → q.timers = [.parked t] → q.IsNextDue t →
      now.nanos < t.nanos → Tended now q

/-- Whether a timer is tended is read off its runs and the keys that wait. -/
theorem Tended.congr (h : Tended now q) (hr : q'.timerRunning = q.timerRunning)
    (ht : q'.timers = q.timers) (hw : q'.waiting = q.waiting) : Tended now q' := by
  cases h with
  | idle hrun htimers hnone => exact .idle (hr.trans hrun) (ht.trans htimers) (by rwa [hw])
  | ready hrun htimers => exact .ready (hr.trans hrun) (ht.trans htimers)
  | parked hrun htimers hnext hlt =>
    exact .parked (hr.trans hrun) (ht.trans htimers) ⟨by rw [hw]; exact hnext.exists_key,
      by rw [hw]; exact hnext.le⟩ hlt

/-- A call makes the run of the timer ready, if there is one, whatever keys wait then. -/
theorem Tended.callTimer (h : Tended now q) (hr : q'.timerRunning = q.timerRunning)
    (ht : q'.timers = q.timers) (hw : q'.timers = [] → ∀ k, q'.waiting.get? k = none) :
    Tended now q'.callTimer := by
  unfold WorkQueue.callTimer
  cases h with
  | idle hrun htimers _ =>
    rw [htimers] at ht
    rw [if_neg (by simp [ht])]
    exact .idle (hr.trans hrun) ht (hw ht)
  | ready hrun htimers =>
    rw [htimers] at ht
    rw [if_neg (by simp [ht, TimerRun.isParked])]
    exact .ready (hr.trans hrun) ht
  | parked hrun htimers _ _ =>
    rw [htimers] at ht
    rw [if_pos (by simp [ht, TimerRun.isParked])]
    exact .ready (hr.trans hrun) (by simp [ht, wakeTimers])

/-- There is a run of the timer if it is said to be there. -/
theorem Tended.timers_ne_nil (h : Tended now q) (hrun : q.timerRunning = true) :
    q.timers ≠ [] := by
  cases h with
  | idle hidle _ _ =>
    rw [hrun] at hidle
    cases hidle
  | ready _ htimers | parked _ htimers _ _ =>
    rw [htimers]
    exact List.cons_ne_nil _ _

/-- While a key waits there is a run of the timer. -/
theorem Tended.timerRunning (h : Tended now q) (hk : q.waiting.get? k = some t) :
    q.timerRunning = true := by
  cases h with
  | idle _ _ hnone =>
    rw [hnone] at hk
    cases hk
  | ready hrun _ | parked hrun _ _ _ => exact hrun

/-- When an instant is brought forward, a run of the timer is started or called. -/
theorem Tended.armTimer (h : Tended now q) (w : Table Key Instant) :
    Tended now ({ q with waiting := w }.armTimer true) := by
  unfold WorkQueue.armTimer
  split
  · next hrun =>
    cases h with
    | idle _ htimers _ => exact .ready rfl (by simp [htimers])
    | ready hrunning _ | parked hrunning _ _ _ => exact absurd hrunning hrun
  · next hrun =>
    rw [if_pos rfl]
    have hne := h.timers_ne_nil (Classical.not_not.1 hrun)
    exact h.callTimer rfl rfl fun hnil => absurd hnil hne

/-- The timer stays tended when a key is added at an instant. -/
theorem Tended.addAt (h : Tended now q) (k : Key) (due : Instant) : Tended now (q.addAt k due) := by
  unfold WorkQueue.addAt
  split
  · exact h
  · split
    · next t hk =>
      split
      · exact h.armTimer _
      · have hsame : q.armTimer false = q := by simp [WorkQueue.armTimer, h.timerRunning hk]
        rwa [hsame]
    · exact h.armTimer _

/-- The timer stays tended when a key is added. -/
theorem Tended.add (h : Tended now q) (k : Key) : Tended now (q.add k) := by
  rcases add_cases q k with ⟨-, he⟩ | ⟨-, -, -, he⟩ | ⟨-, -, -, he⟩ <;> rw [he]
  · exact h
  · exact h.congr rfl rfl rfl
  · exact h.congr rfl rfl rfl

/-- The timer stays tended when a key is added after a delay. -/
theorem Tended.addAfter (h : Tended now q) (k : Key) (now' : Instant) (d : Duration) :
    Tended now (q.addAfter k now' d).2 := by
  rcases addAfter_cases q k now' d with ⟨-, he⟩ | ⟨-, -, he⟩ | ⟨-, t, -, he⟩ <;> rw [he]
  · exact h.add k
  · exact h
  · exact h.addAt k t

/-- The timer stays tended when the queue shuts down: its run is called to its end. -/
theorem Tended.shutDown (h : Tended now q) : Tended now q.shutDown :=
  h.callTimer rfl rfl fun _ _ => rfl

/-- A run of the timer parks until the next instant, and ends if there is none. -/
theorem Tended.runTimer (h : Tended now q) (hclosed : Closed q) :
    Tended now (q.runTimer now) := by
  have hsame : .ready ∉ q.timers → q.runTimer now = q := fun hready => if_neg hready
  cases h with
  | idle hrun htimers hnone =>
    rw [hsame (by simp [htimers])]
    exact .idle hrun htimers hnone
  | parked hrun htimers hnext hlt =>
    rw [hsame (by simp [htimers])]
    exact .parked hrun htimers hnext hlt
  | ready hrun htimers =>
    have hdrop : dropReady q.timers = [] := by rw [htimers]; rfl
    unfold WorkQueue.runTimer
    rw [if_pos (by simp [htimers])]
    dsimp only
    split
    · next hs => exact .idle rfl hdrop (hclosed hs)
    · split
      · next hnone =>
        refine .idle ?_ ?_ fun k => ?_
        · rw [foldl_add_timerRunning]
        · rw [foldl_add_timers]
          exact hdrop
        · rw [foldl_add_waiting]
          exact get?_of_nextDue?_none hnone k
      · next t hnext =>
        have hnext := isNextDue_of_nextDue? hnext
        obtain ⟨k, hk⟩ := hnext.exists_key
        refine .parked (t := t) ?_ ?_ ⟨?_, ?_⟩ ?_
        · dsimp only
          rw [foldl_add_timerRunning]
          exact hrun
        · dsimp only
          rw [foldl_add_timers, hdrop, List.nil_append]
        · dsimp only
          rw [foldl_add_waiting]
          exact ⟨k, hk⟩
        · dsimp only
          rw [foldl_add_waiting]
          exact hnext.le
        · -- an instant that is reached is not kept
          dsimp only at hk
          rw [Table.get?_filter, Option.filter_eq_some_iff] at hk
          simpa [Instant.reached] using hk.2

/-- An instant that is reached makes the run of the timer ready that is parked until it. -/
theorem Tended.tick (h : Tended now q) (now' : Instant) : Tended now' (q.tick now') := by
  unfold WorkQueue.tick
  cases h with
  | idle hrun htimers hnone => exact .idle hrun (by simp [htimers, wakeTimers]) hnone
  | ready hrun htimers => exact .ready hrun (by simp [htimers, wakeTimers])
  | @parked t hrun htimers hnext hlt =>
    cases ht : t.reached now' with
    | true => exact .ready hrun (by simp [htimers, wakeTimers, ht])
    | false =>
      refine .parked hrun (by simp [htimers, wakeTimers, ht]) ⟨hnext.exists_key, hnext.le⟩ ?_
      exact Nat.not_le.1 (of_decide_eq_false ht)

/-! ## The instant of a key -/

/-- How the instant of a key that is asked for at `r` moves: not at all, or to the earlier one. -/
inductive Moves (r w : Option Instant) : Option Instant → Prop
  | stay : r = none → Moves r w w
  | asked {due : Instant} : r = some due → Moves r w (some (w.elim due (·.earlier due)))

/-- A key waits for the instant that it waited for, or for the one that it is asked for at. -/
theorem Moves.eq_or {r w w' : Option Instant} (h : Moves r w w') (hw : w' = some t) :
    w = some t ∨ r = some t := by
  cases h with
  | stay _ => exact .inl hw
  | @asked due hr =>
    cases w with
    | none => exact .inr (hr.trans hw)
    | some u =>
      rw [Option.elim_some, Instant.earlier] at hw
      split at hw
      · exact .inl hw
      · exact .inr (hr.trans hw)

/-- A key that waits already waits no longer. -/
theorem Moves.le {r w' : Option Instant} (h : Moves r (some t) w') :
    ∃ u, w' = some u ∧ u.nanos ≤ t.nanos := by
  cases h with
  | stay _ => exact ⟨t, rfl, Nat.le_refl _⟩
  | @asked due _ => exact ⟨t.earlier due, rfl, earlier_le_left t due⟩

/-- How the instant of a key moves when a key, this one or another, is added after a delay. -/
theorem moves_addAfter (q : WorkQueue L) (now : Instant) (x : Key) (d : Duration) (k : Key) :
    Moves (if q.shuttingDown = false ∧ k ∉ q.dirty ∧ x = k ∧ d ≠ .zero then now.add? d else none)
      (q.waiting.get? k) ((q.addAfter x now d).2.waiting.get? k) := by
  rcases addAfter_cases q x now d with ⟨hd, he⟩ | ⟨-, hnone, he⟩ | ⟨hd, t, ht, he⟩ <;> rw [he]
  · rw [add_waiting]
    exact .stay (if_neg fun h => h.2.2.2 hd)
  · exact .stay (by rw [hnone, ite_self])
  · rcases addAt_cases q x t with ⟨hs | hx, he⟩ | ⟨hs, hx, w, ts, b, hw, he⟩ <;> rw [he]
    · exact .stay (if_neg fun h => Bool.eq_false_iff.1 h.1 hs)
    · exact .stay (if_neg fun h => h.2.1 (h.2.2.1 ▸ hx))
    · rw [hw]
      by_cases hk : k = x
      · subst hk
        rw [if_pos rfl]
        exact .asked (by rw [if_pos ⟨hs, hx, rfl, hd⟩, ht])
      · rw [if_neg hk]
        exact .stay (if_neg fun h => hk h.2.2.1.symm)

/-! ## Steps -/

variable [Limiter L]

/-- The instant at which a deed asks for a key to be added. A queue that shuts down is asked for
nothing, a key that is dirty already is not asked for, and one that is added without a delay is
added at once. -/
def Deed.request? (now : Instant) (q : WorkQueue L) (k : Key) (e : Deed) : Option Instant :=
  if q.shuttingDown ∨ k ∈ q.dirty then none
  else (e.delay? now q.limiter k).bind fun d => if d = .zero then none else now.add? d

/-- What a deed asks for that adds a key after a delay. -/
theorem request?_of_delay? {d : Duration}
    (h : e.delay? now q.limiter k = if x = k then some d else none) :
    e.request? now q k =
      if q.shuttingDown = false ∧ k ∉ q.dirty ∧ x = k ∧ d ≠ .zero then now.add? d else none := by
  unfold Deed.request?
  rw [h]
  grind

/-- A deed that has no delay for a key does not ask for it. -/
theorem request?_eq_none (h : e.delay? now q.limiter k = none) : e.request? now q k = none := by
  unfold Deed.request?
  rw [h, Option.bind_none, ite_self]

/-- A deed brings the instant of a key forward to the one that it asks for, if it asks for one. A
key stops waiting when the queue shuts down, or when a run of the timer finds its instant reached,
and then it is added. -/
theorem Step.moves (hs : Step now q e q') (k : Key) :
    Moves (e.request? now q k) (q.waiting.get? k) (q'.waiting.get? k) ∨
      q'.waiting.get? k = none ∧ (e = .shutDown ∨
        e = .fire ∧ k ∈ q'.dirty ∧ ∃ t, q.waiting.get? k = some t ∧ t.reached now = true) := by
  cases hs with
  | add x =>
    rw [add_waiting, request?_of_delay? (x := x) rfl]
    exact .inl (.stay (if_neg fun h => h.2.2.2 rfl))
  | addAfter x d =>
    rw [request?_of_delay? (x := x) rfl]
    exact .inl (moves_addAfter q now x d k)
  | addRateLimited x =>
    have hdelay : (Deed.addRateLimited x).delay? now q.limiter k =
        if x = k then (Limiter.delay x now q.limiter).1 else none := by
      rw [Deed.delay?]
      grind
    rcases addRateLimited_cases q x now with ⟨l, hl, he⟩ | ⟨d, l, hl, he⟩ <;> rw [he] <;>
      rw [hl] at hdelay
    · exact .inl (.stay (request?_eq_none (by rw [hdelay, ite_self])))
    · rw [request?_of_delay? hdelay]
      exact .inl (moves_addAfter { q with limiter := l } now x d k)
  | @handOut g x q' ha | @turnAway g a q' ha _ =>
    obtain ⟨ks, ds, ps, gs, he⟩ := ask_eq q g
    obtain rfl := (congrArg Prod.snd ha).symm.trans he
    exact .inl (.stay (request?_eq_none rfl))
  | done x =>
    obtain ⟨ks, ps, gs, he⟩ := done_eq q x
    rw [he]
    exact .inl (.stay (request?_eq_none rfl))
  | leave | forget | tick => exact .inl (.stay (request?_eq_none rfl))
  | shutDown =>
    obtain ⟨ts, b, he⟩ := shutDown_eq q
    rw [he]
    exact .inr ⟨rfl, .inl rfl⟩
  | fire =>
    have hnone : Deed.fire.request? now q k = none := request?_eq_none rfl
    rcases runTimer_cases q now with he | ⟨-, ts, he⟩ | ⟨hs, ts, r, b, he⟩ <;> rw [he]
    · exact .inl (.stay hnone)
    · exact .inl (.stay hnone)
    · dsimp only
      rw [foldl_add_waiting, Table.get?_filter]
      cases hk : q.waiting.get? k with
      | none => exact .inl (.stay hnone)
      | some t =>
        cases ht : t.reached now with
        | true =>
          have hdirty := mem_dirty_foldl_add
            (q := { q with waiting := q.waiting.filter (fun _ t => ¬ t.reached now) }) hs
            (mem_due.2 ⟨t, hk, ht⟩)
          exact .inr ⟨by simp [Option.filter, ht], .inr ⟨rfl, hdirty, t, rfl, ht⟩⟩
        | false => exact .inl (by simpa [Option.filter, ht] using Moves.stay hnone)

/-- At a queue that shuts down no key ever waits again. -/
theorem Step.closed (hs : Step now q e q') (h : Closed q) : Closed q' := by
  intro hs' k
  rcases hs.moves k with hmoves | ⟨hgone, -⟩
  · by_cases he : e = .shutDown
    · subst he
      cases hs
      rw [shutDown_waiting]
      exact Table.get?_empty k
    · have hshut : q.shuttingDown = true := (hs.shuttingDown_eq he).symm.trans hs'
      have hnone : e.request? now q k = none := if_pos (.inl hshut)
      rw [h hshut k] at hmoves
      generalize q'.waiting.get? k = w at hmoves
      cases hmoves with
      | stay _ => rfl
      | asked hr => cases hnone.symm.trans hr
  · exact hgone

/-- The timer stays tended by everything that takes no time. -/
theorem Step.tended (hs : Step now q e q') (he : e ≠ .tick) (h : Tended now q)
    (hclosed : Closed q) : Tended now q' := by
  cases hs with
  | add k => exact h.add k
  | addAfter k d => exact h.addAfter k now d
  | addRateLimited k =>
    rcases addRateLimited_cases q k now with ⟨l, -, he⟩ | ⟨d, l, -, he⟩ <;> rw [he]
    · exact h.congr rfl rfl rfl
    · exact (h.congr rfl rfl rfl : Tended now { q with limiter := l }).addAfter k now d
  | @handOut g k q' ha | @turnAway g a q' ha _ =>
    obtain ⟨ks, ds, ps, gs, he⟩ := ask_eq q g
    obtain rfl := (congrArg Prod.snd ha).symm.trans he
    exact h.congr rfl rfl rfl
  | done k =>
    obtain ⟨ks, ps, gs, he⟩ := done_eq q k
    rw [he]
    exact h.congr rfl rfl rfl
  | leave | forget => exact h.congr rfl rfl rfl
  | shutDown => exact h.shutDown
  | tick => exact absurd rfl he
  | fire => exact h.runTimer hclosed

end

end Prewarm.WorkQueue
