import Prewarm.WorkQueue

/-!
# What the operations of a work queue do

For each operation of a queue, which of the queue's fields it changes and to what. An operation that
decides (`addAt`, `ask`, `runTimer`) has a lemma with one case for each decision, and each case
writes the queue after the operation as the queue before it with new values for some fields. So a
property of the keys is followed through an operation without a look at the timers, and the other
way round.
-/

namespace Prewarm.WorkQueue

section
variable {L : Type} {q : WorkQueue L} {k x : Key} {ks : List Key}

/-- A set of keys with one more has that key and those it had. -/
@[simp] theorem mem_mark : x ∈ mark k ks ↔ x = k ∨ x ∈ ks := by
  unfold mark
  split
  · next h => exact ⟨.inr, fun hx => hx.elim (fun e => e ▸ h) id⟩
  · simp [or_comm]

/-- A set of keys without one has the others that it had. -/
@[simp] theorem mem_unmark : x ∈ unmark k ks ↔ x ∈ ks ∧ x ≠ k := by
  simp [unmark]

/-! ## Timers -/

/-- A call for the timer changes nothing but the timers. -/
theorem callTimer_eq (q : WorkQueue L) :
    ∃ ts b, q.callTimer = { q with timers := ts, timerPermit := b } := by
  unfold callTimer
  split
  · exact ⟨_, _, rfl⟩
  · exact ⟨_, _, rfl⟩

/-- After the timer was seen to, a run of it looks after the waiting keys, and nothing but the
timers has changed. -/
theorem armTimer_eq (q : WorkQueue L) (earlier : Bool) :
    ∃ ts b, q.armTimer earlier =
      { q with timers := ts, timerRunning := true, timerPermit := b } := by
  unfold armTimer
  split
  · exact ⟨_, _, rfl⟩
  · next hr =>
    have hr : q.timerRunning = true := by simpa using hr
    rw [← hr]
    split
    · exact callTimer_eq q
    · exact ⟨q.timers, q.timerPermit, rfl⟩

/-! ## Additions -/

/-- An addition of a key is ignored, marks a key that a worker has, or puts the key on the queue. -/
theorem add_cases (q : WorkQueue L) (k : Key) :
    ((q.shuttingDown = true ∨ k ∈ q.dirty) ∧ q.add k = q) ∨
    (q.shuttingDown = false ∧ k ∉ q.dirty ∧ k ∈ q.processing ∧
      q.add k = { q with dirty := mark k q.dirty }) ∨
    (q.shuttingDown = false ∧ k ∉ q.dirty ∧ k ∉ q.processing ∧
      q.add k = { q with
        dirty := mark k q.dirty
        queue := q.queue ++ [k]
        getters := q.getters.callOne }) := by
  unfold add
  split
  · next h => exact .inl ⟨h, rfl⟩
  · next h =>
    obtain ⟨hs, hd⟩ := not_or.1 h
    have hs : q.shuttingDown = false := Bool.eq_false_iff.2 hs
    dsimp only
    split
    · next hp => exact .inr (.inl ⟨hs, hd, hp, rfl⟩)
    · next hp => exact .inr (.inr ⟨hs, hd, hp, rfl⟩)

/-- A key that is added now does not wait because of that. -/
@[simp] theorem add_waiting (q : WorkQueue L) (k : Key) : (q.add k).waiting = q.waiting := by
  rcases add_cases q k with ⟨-, h⟩ | ⟨-, -, -, h⟩ | ⟨-, -, -, h⟩ <;> rw [h]

/-- Keys that are added now do not wait because of that. -/
@[simp] theorem foldl_add_waiting (ks : List Key) (q : WorkQueue L) :
    (ks.foldl add q).waiting = q.waiting := by
  induction ks generalizing q with
  | nil => rfl
  | cons k ks ih => rw [List.foldl_cons, ih, add_waiting]

/-- What the timers are does not matter to an addition. -/
theorem add_withTimers (q : WorkQueue L) (k : Key) (ts : List TimerRun) (r b : Bool) :
    { q with timers := ts, timerRunning := r, timerPermit := b }.add k =
      { q.add k with timers := ts, timerRunning := r, timerPermit := b } := by
  unfold add
  dsimp only
  split
  · rfl
  · split <;> rfl

/-- What the timers are does not matter to additions one after the other. -/
theorem foldl_add_withTimers (ks : List Key) (q : WorkQueue L) (ts : List TimerRun) (r b : Bool) :
    ks.foldl add { q with timers := ts, timerRunning := r, timerPermit := b } =
      { ks.foldl add q with timers := ts, timerRunning := r, timerPermit := b } := by
  induction ks generalizing q with
  | nil => rfl
  | cons k ks ih => rw [List.foldl_cons, List.foldl_cons, add_withTimers, ih]

/-- Keys that are added now leave the runs of the timer alone. -/
@[simp] theorem foldl_add_timers (ks : List Key) (q : WorkQueue L) :
    (ks.foldl add q).timers = q.timers := by
  have hadd := foldl_add_withTimers ks q q.timers q.timerRunning q.timerPermit
  have htimers := congrArg WorkQueue.timers hadd
  exact htimers

/-- Keys that are added now do not start the timer. -/
@[simp] theorem foldl_add_timerRunning (ks : List Key) (q : WorkQueue L) :
    (ks.foldl add q).timerRunning = q.timerRunning := by
  have hadd := foldl_add_withTimers ks q q.timers q.timerRunning q.timerPermit
  have hrunning := congrArg WorkQueue.timerRunning hadd
  exact hrunning

/-- A key that is added at an instant is ignored, or it waits until the earlier one of this instant
and the one it waits for already. -/
theorem addAt_cases (q : WorkQueue L) (k : Key) (due : Instant) :
    ((q.shuttingDown = true ∨ k ∈ q.dirty) ∧ q.addAt k due = q) ∨
    (q.shuttingDown = false ∧ k ∉ q.dirty ∧ ∃ w ts b,
      (∀ x, w.get? x = if x = k then some ((q.waiting.get? k).elim due (·.earlier due))
        else q.waiting.get? x) ∧
      q.addAt k due =
        { q with waiting := w, timers := ts, timerRunning := true, timerPermit := b }) := by
  unfold addAt
  split
  · next h => exact .inl ⟨h, rfl⟩
  · next h =>
    obtain ⟨hs, hd⟩ := not_or.1 h
    refine .inr ⟨Bool.eq_false_iff.2 hs, hd, ?_⟩
    cases hw : q.waiting.get? k with
    | none =>
      obtain ⟨ts, b, harm⟩ := armTimer_eq { q with waiting := q.waiting.insert k due } true
      exact ⟨_, ts, b, fun x => Table.get?_insert .., harm⟩
    | some t =>
      by_cases hlt : due.nanos < t.nanos
      · obtain ⟨ts, b, harm⟩ := armTimer_eq { q with waiting := q.waiting.insert k due } true
        have hmin : t.earlier due = due := if_neg (Nat.not_le.2 hlt)
        refine ⟨_, ts, b, fun x => ?_, by simpa only [if_pos hlt] using harm⟩
        rw [Table.get?_insert, Option.elim_some, hmin]
      · obtain ⟨ts, b, harm⟩ := armTimer_eq q false
        have hmin : t.earlier due = t := if_pos (Nat.not_lt.1 hlt)
        refine ⟨q.waiting, ts, b, fun x => ?_, by simpa only [if_neg hlt] using harm⟩
        rw [Option.elim_some, hmin]
        split
        · next hx => rw [hx, hw]
        · rfl

/-- An addition after a delay is one at once, fails, or is one at the instant after the delay. -/
theorem addAfter_cases (q : WorkQueue L) (k : Key) (now : Instant) (d : Duration) :
    (d = .zero ∧ q.addAfter k now d = (.ok (), q.add k)) ∨
    (d ≠ .zero ∧ now.add? d = none ∧ q.addAfter k now d = (.error .noInstant, q)) ∨
    (d ≠ .zero ∧ ∃ t, now.add? d = some t ∧ q.addAfter k now d = (.ok (), q.addAt k t)) := by
  unfold addAfter
  split
  · next h => exact .inl ⟨h, rfl⟩
  · next h =>
    cases ht : now.add? d with
    | none => exact .inr (.inl ⟨h, rfl, rfl⟩)
    | some t => exact .inr (.inr ⟨h, t, rfl, rfl⟩)

/-- An addition after the delay of the limiter fails, or is one after the delay of the limiter. -/
theorem addRateLimited_cases [Limiter L] (q : WorkQueue L) (k : Key) (now : Instant) :
    (∃ l, Limiter.delay k now q.limiter = (none, l) ∧
      q.addRateLimited k now = (.error .noDelay, { q with limiter := l })) ∨
    (∃ d l, Limiter.delay k now q.limiter = (some d, l) ∧
      q.addRateLimited k now = { q with limiter := l }.addAfter k now d) := by
  unfold addRateLimited
  obtain ⟨d, l⟩ := Limiter.delay k now q.limiter
  cases d with
  | none => exact .inl ⟨l, rfl, rfl⟩
  | some d => exact .inr ⟨d, l, rfl, rfl⟩

/-! ## What additions leave alone -/

/-- What an addition of keys leaves alone: what workers have, the limiter, whether the queue shuts
down, and that a key needs work. -/
structure Adds (q q' : WorkQueue L) : Prop where
  processing : q'.processing = q.processing
  limiter : q'.limiter = q.limiter
  shuttingDown : q'.shuttingDown = q.shuttingDown
  dirty : ∀ k ∈ q.dirty, k ∈ q'.dirty

theorem Adds.refl (q : WorkQueue L) : Adds q q := ⟨rfl, rfl, rfl, fun _ => id⟩

theorem Adds.trans {q₁ q₂ q₃ : WorkQueue L} (h : Adds q₁ q₂) (h' : Adds q₂ q₃) : Adds q₁ q₃ :=
  ⟨h'.processing.trans h.processing, h'.limiter.trans h.limiter,
    h'.shuttingDown.trans h.shuttingDown, fun k hk => h'.dirty k (h.dirty k hk)⟩

/-- A key that is added leaves alone what additions leave alone. -/
theorem adds_add (q : WorkQueue L) (k : Key) : Adds q (q.add k) := by
  rcases add_cases q k with ⟨-, h⟩ | ⟨-, -, -, h⟩ | ⟨-, -, -, h⟩ <;> rw [h]
  · exact .refl q
  · exact ⟨rfl, rfl, rfl, fun _ hx => mem_mark.2 (.inr hx)⟩
  · exact ⟨rfl, rfl, rfl, fun _ hx => mem_mark.2 (.inr hx)⟩

/-- Keys that are added one after the other leave alone what additions leave alone. -/
theorem adds_foldl_add (ks : List Key) (q : WorkQueue L) : Adds q (ks.foldl add q) := by
  induction ks generalizing q with
  | nil => exact .refl q
  | cons k ks ih => exact (adds_add q k).trans (ih (q.add k))

/-- A key that is added at an instant leaves alone what additions leave alone. -/
theorem adds_addAt (q : WorkQueue L) (k : Key) (due : Instant) : Adds q (q.addAt k due) := by
  rcases addAt_cases q k due with ⟨-, h⟩ | ⟨-, -, w, ts, b, -, h⟩ <;> rw [h]
  · exact .refl q
  · exact ⟨rfl, rfl, rfl, fun _ => id⟩

/-- A key that is added after a delay leaves alone what additions leave alone. -/
theorem adds_addAfter (q : WorkQueue L) (k : Key) (now : Instant) (d : Duration) :
    Adds q (q.addAfter k now d).2 := by
  rcases addAfter_cases q k now d with ⟨-, h⟩ | ⟨-, -, h⟩ | ⟨-, t, -, h⟩ <;> rw [h]
  · exact adds_add q k
  · exact .refl q
  · exact adds_addAt q k t

/-! ## Hand-outs -/

/-- One who asks for a key is told that there are none any more, gets the first key of the queue, or
falls asleep. -/
theorem ask_cases (q : WorkQueue L) (g : GetterId) :
    (q.shuttingDown = true ∧ q.ask g = (.closed, { q with getters := q.getters.run g })) ∨
    (q.shuttingDown = false ∧ q.queue = [] ∧
      q.ask g = (.asleep, { q with getters := (q.getters.run g).sleep g })) ∨
    (q.shuttingDown = false ∧ ∃ k ks, q.queue = k :: ks ∧
      q.ask g = (.key k, { q with
        queue := ks
        dirty := unmark k q.dirty
        processing := mark k q.processing
        getters := q.getters.run g })) := by
  unfold ask
  dsimp only
  split
  · next h => exact .inl ⟨h, rfl⟩
  · next h =>
    have hs : q.shuttingDown = false := Bool.eq_false_iff.2 h
    cases hq : q.queue with
    | nil => exact .inr (.inl ⟨hs, rfl, rfl⟩)
    | cons k ks => exact .inr (.inr ⟨hs, k, ks, rfl, rfl⟩)

/-- Whatever the answer, only the queue, the key that is taken from it and those who ask change. -/
theorem ask_eq (q : WorkQueue L) (g : GetterId) : ∃ ks ds ps gs, (q.ask g).2 =
    { q with queue := ks, dirty := ds, processing := ps, getters := gs } := by
  rcases ask_cases q g with ⟨-, he⟩ | ⟨-, -, he⟩ | ⟨-, k, ks, -, he⟩ <;> rw [he]
  · exact ⟨_, _, _, _, rfl⟩
  · exact ⟨_, _, _, _, rfl⟩
  · exact ⟨_, _, _, _, rfl⟩

/-- Asking for a key does not matter to whether the queue shuts down. -/
@[simp] theorem ask_shuttingDown (q : WorkQueue L) (g : GetterId) :
    (q.ask g).2.shuttingDown = q.shuttingDown := by
  obtain ⟨ks, ds, ps, gs, he⟩ := ask_eq q g
  rw [he]

/-- Asking for a key leaves the limiter alone. -/
@[simp] theorem ask_limiter (q : WorkQueue L) (g : GetterId) : (q.ask g).2.limiter = q.limiter := by
  obtain ⟨ks, ds, ps, gs, he⟩ := ask_eq q g
  rw [he]

/-- Asking for a key leaves the runs of the timer alone. -/
@[simp] theorem ask_timers (q : WorkQueue L) (g : GetterId) : (q.ask g).2.timers = q.timers := by
  obtain ⟨ks, ds, ps, gs, he⟩ := ask_eq q g
  rw [he]

/-- A key that work is done on goes back on the queue if it is dirty. -/
theorem done_cases (q : WorkQueue L) (k : Key) :
    (k ∉ q.dirty ∧ q.done k = { q with processing := unmark k q.processing }) ∨
    (k ∈ q.dirty ∧ q.done k = { q with
      processing := unmark k q.processing
      queue := q.queue ++ [k]
      getters := q.getters.callOne }) := by
  unfold done
  dsimp only
  split
  · next h => exact .inr ⟨h, rfl⟩
  · next h => exact .inl ⟨h, rfl⟩

/-- A key that work is done on is with no worker any more. -/
@[simp] theorem mem_processing_done : x ∈ (q.done k).processing ↔ x ∈ q.processing ∧ x ≠ k := by
  rcases done_cases q k with ⟨-, he⟩ | ⟨-, he⟩ <;> rw [he]
  · exact mem_unmark
  · exact mem_unmark

/-- Whether a key goes back on the queue or not, only the queue, the keys that workers have and
those who ask change. -/
theorem done_eq (q : WorkQueue L) (k : Key) : ∃ ks ps gs, q.done k =
    { q with queue := ks, processing := ps, getters := gs } := by
  rcases done_cases q k with ⟨-, he⟩ | ⟨-, he⟩ <;> rw [he]
  · exact ⟨_, _, _, rfl⟩
  · exact ⟨_, _, _, rfl⟩

/-- Work that is done does not matter to whether the queue shuts down. -/
@[simp] theorem done_shuttingDown (q : WorkQueue L) (k : Key) :
    (q.done k).shuttingDown = q.shuttingDown := by
  obtain ⟨ks, ps, gs, he⟩ := done_eq q k
  rw [he]

/-- Work that is done leaves the dirty keys dirty. -/
@[simp] theorem done_dirty (q : WorkQueue L) (k : Key) : (q.done k).dirty = q.dirty := by
  obtain ⟨ks, ps, gs, he⟩ := done_eq q k
  rw [he]

/-- Work that is done leaves the limiter alone. -/
@[simp] theorem done_limiter (q : WorkQueue L) (k : Key) : (q.done k).limiter = q.limiter := by
  obtain ⟨ks, ps, gs, he⟩ := done_eq q k
  rw [he]

/-- A queue that shuts down lets the waiting keys go. -/
theorem shutDown_eq (q : WorkQueue L) : ∃ ts b, q.shutDown =
    { q with
      shuttingDown := true
      waiting := .empty
      getters := q.getters.callAll
      timers := ts
      timerPermit := b } := callTimer_eq _

/-- A queue that was shut down shuts down. -/
@[simp] theorem shutDown_shuttingDown (q : WorkQueue L) : q.shutDown.shuttingDown = true := by
  obtain ⟨ts, b, he⟩ := shutDown_eq q
  rw [he]

/-- A queue that shuts down keeps its keys. -/
@[simp] theorem shutDown_queue (q : WorkQueue L) : q.shutDown.queue = q.queue := by
  obtain ⟨ts, b, he⟩ := shutDown_eq q
  rw [he]

/-- A queue that shuts down keeps the dirty keys dirty. -/
@[simp] theorem shutDown_dirty (q : WorkQueue L) : q.shutDown.dirty = q.dirty := by
  obtain ⟨ts, b, he⟩ := shutDown_eq q
  rw [he]

/-- A queue that shuts down leaves workers the keys that they have. -/
@[simp] theorem shutDown_processing (q : WorkQueue L) : q.shutDown.processing = q.processing := by
  obtain ⟨ts, b, he⟩ := shutDown_eq q
  rw [he]

/-- No key waits at a queue that was shut down. -/
@[simp] theorem shutDown_waiting (q : WorkQueue L) : q.shutDown.waiting = .empty := by
  obtain ⟨ts, b, he⟩ := shutDown_eq q
  rw [he]

/-- A queue that shuts down leaves the limiter alone. -/
@[simp] theorem shutDown_limiter (q : WorkQueue L) : q.shutDown.limiter = q.limiter := by
  obtain ⟨ts, b, he⟩ := shutDown_eq q
  rw [he]

/-- A queue that shuts down calls all who are asleep. -/
@[simp] theorem shutDown_getters (q : WorkQueue L) :
    q.shutDown.getters = q.getters.callAll := by
  obtain ⟨ts, b, he⟩ := shutDown_eq q
  rw [he]

/-! ## Runs of the timer -/

/-- The keys that are due are those that wait for an instant that is reached. -/
theorem mem_due {now : Instant} :
    k ∈ q.due now ↔ ∃ t, q.waiting.get? k = some t ∧ t.reached now = true := by
  simp only [due, List.mem_map, List.mem_mergeSort, List.mem_filter, Table.get?_eq_some_iff]
  constructor
  · rintro ⟨⟨k, t⟩, h, rfl⟩
    exact ⟨t, h⟩
  · rintro ⟨t, h⟩
    exact ⟨(k, t), h, rfl⟩

/-- A run of the timer does nothing if none is ready and ends if the queue shuts down. Otherwise the
keys that are due stop waiting and are added. -/
theorem runTimer_cases (q : WorkQueue L) (now : Instant) :
    q.runTimer now = q ∨
    (q.shuttingDown = true ∧ ∃ ts, q.runTimer now =
      { q with timers := ts, timerRunning := false }) ∨
    (q.shuttingDown = false ∧ ∃ ts r b, q.runTimer now =
      { (q.due now).foldl add { q with
          waiting := q.waiting.filter (fun _ t => ¬ t.reached now) } with
        timers := ts, timerRunning := r, timerPermit := b }) := by
  unfold runTimer
  split
  · dsimp only
    split
    · next hs => exact .inr (.inl ⟨hs, _, rfl⟩)
    · next hs =>
      refine .inr (.inr ⟨Bool.eq_false_iff.2 hs, ?_⟩)
      have hadd := fun r => foldl_add_withTimers (q.due now)
        { q with waiting := q.waiting.filter (fun _ t => ¬ t.reached now) }
        (dropReady q.timers) r q.timerPermit
      split
      · exact ⟨_, _, _, hadd false⟩
      · next t _ =>
        exact ⟨_, _, _, congrArg (fun p : WorkQueue L =>
          { p with timers := p.timers ++ [TimerRun.parked t], timerPermit := false })
          (hadd q.timerRunning)⟩
  · exact .inl rfl

/-- A run of the timer leaves alone what additions leave alone. -/
theorem adds_runTimer (q : WorkQueue L) (now : Instant) : Adds q (q.runTimer now) := by
  rcases runTimer_cases q now with h | ⟨-, ts, h⟩ | ⟨-, ts, r, b, h⟩ <;> rw [h]
  · exact .refl q
  · exact ⟨rfl, rfl, rfl, fun _ => id⟩
  · have hadd := adds_foldl_add (q.due now)
      { q with waiting := q.waiting.filter (fun _ t => ¬ t.reached now) }
    exact ⟨hadd.processing, hadd.limiter, hadd.shuttingDown, hadd.dirty⟩

end

end Prewarm.WorkQueue
