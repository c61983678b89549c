import Prewarm.Proofs.WorkQueue.ShutDown

/-!
# Keys and calls

Each key that comes on a queue is announced by one call, and a call that finds no one asleep leaves
a permit, however many keys it stands for. So the keys of a queue cannot be told from its calls and
permits. What can is that no key goes unheard: while someone is asleep, at least as many others were
called and have not run since as there are keys (`Wakeups.Covers`). A call that is lost would break
that, and so would one who leaves with its call. Until the queue is shut all that is done with it
keeps this, and then no one is asleep (`Step.wakeful`).
-/

namespace Prewarm

namespace Wakeups

/-- How calls and `n` keys that can be handed out lie to each other. -/
structure Covers (w : Wakeups) (n : Nat) : Prop where
  /-- No one waits twice. -/
  nodup : (w.asleep ++ w.woken.map Prod.fst).Nodup
  /-- Everyone who was called was called alone. -/
  alone : ∀ c ∈ w.woken, c.2 = .one
  /-- If someone is asleep, there is one who was called for each key. -/
  enough : w.asleep ≠ [] → n ≤ w.woken.length

variable {w : Wakeups} {g : GetterId} {n m : Nat}

/-- Calls that cover some keys cover fewer. -/
theorem Covers.mono (h : w.Covers n) (hle : m ≤ n) : w.Covers m :=
  ⟨h.nodup, h.alone, fun hne => Nat.le_trans hle (h.enough hne)⟩

/-- A call makes up for one more key. -/
theorem Covers.callOne (h : w.Covers n) : w.callOne.Covers (n + 1) := by
  unfold Wakeups.callOne
  split
  · next hnil => exact ⟨h.nodup, h.alone, fun hne => absurd hnil hne⟩
  · next g gs hcons =>
    have hnodup := h.nodup
    rw [hcons] at hnodup
    refine ⟨?_, fun c hc => ?_, fun _ => ?_⟩
    · dsimp only
      rw [List.map_append, ← List.append_assoc]
      exact ((List.perm_append_singleton g _).nodup_iff).2 hnodup
    · rcases List.mem_append.1 hc with hc | hc
      · exact h.alone c hc
      · rw [List.mem_singleton.1 hc]
    · have hle := h.enough (hcons ▸ List.cons_ne_nil g gs)
      dsimp only
      rw [List.length_append, List.length_singleton]
      exact Nat.succ_le_succ hle

/-- Without one who was called at most one call is missing. -/
theorem length_le_filter_ne {cs : List (GetterId × Call)} (h : (cs.map Prod.fst).Nodup)
    (g : GetterId) : cs.length ≤ (cs.filter (·.1 ≠ g)).length + 1 := by
  induction cs with
  | nil => exact Nat.zero_le _
  | cons c cs ih =>
    obtain ⟨hc, hnodup⟩ := List.nodup_cons.1 h
    by_cases hg : c.1 = g
    · have hall : cs.filter (·.1 ≠ g) = cs := List.filter_eq_self.2 fun x hx =>
        decide_eq_true fun hxg => hc (List.mem_map.2 ⟨x, hx, hxg.trans hg.symm⟩)
      rw [List.filter_cons_of_neg (by simpa using hg), hall]
      exact Nat.le_refl _
    · rw [List.filter_cons_of_pos (by simpa using hg)]
      exact Nat.succ_le_succ (ih hnodup)

/-- One who does not wait any more takes one call with it at most. -/
theorem Covers.without (h : w.Covers n) (g : GetterId) (b : Bool) :
    ({ permit := b
       asleep := w.asleep.filter (· ≠ g)
       woken := w.woken.filter (·.1 ≠ g) } : Wakeups).Covers (n - 1) where
  nodup := h.nodup.sublist (List.filter_sublist.append (List.filter_sublist.map _))
  alone c hc := h.alone c (List.mem_filter.1 hc).1
  enough hne := by
    have hle := h.enough fun hnil => hne (by dsimp only; rw [hnil, List.filter_nil])
    have hone := length_le_filter_ne (List.nodup_append.1 h.nodup).2.1 g
    dsimp only
    omega

/-- One who was called and runs leaves one key less to be covered. -/
theorem Covers.run (h : w.Covers (n + 1)) (g : GetterId) : (w.run g).Covers n := h.without g false

/-- One who falls asleep did not wait before, and finds no key. -/
theorem Covers.sleep (h : w.Covers n) (g : GetterId) : ((w.run g).sleep g).Covers 0 where
  nodup := by
    have hnodup := (h.without g false).nodup
    have hg : g ∉ w.asleep.filter (· ≠ g) ++ (w.woken.filter (·.1 ≠ g)).map Prod.fst := by
      simp
    unfold Wakeups.sleep Wakeups.run
    dsimp only at hnodup ⊢
    rw [List.append_assoc]
    exact (List.perm_middle.nodup_iff).2 (List.nodup_cons.2 ⟨hg, hnodup⟩)
  alone c hc := h.alone c (List.mem_filter.1 hc).1
  enough _ := Nat.zero_le _

/-- One who leaves with a call hands it on. -/
theorem Covers.leave (h : w.Covers n) (g : GetterId) : (w.leave g).Covers n := by
  have hrest := h.without g w.permit
  unfold Wakeups.leave
  dsimp only
  split
  · exact hrest.callOne.mono (by omega)
  · next hno =>
    refine ⟨hrest.nodup, hrest.alone, fun hne => ?_⟩
    have hall : w.woken.filter (·.1 ≠ g) = w.woken := List.filter_eq_self.2 fun c hc => by
      refine decide_eq_true fun hg => hno ?_
      rw [← hg, ← h.alone c hc]
      exact hc
    dsimp only
    rw [hall]
    exact h.enough fun hnil => hne (by dsimp only; rw [hnil, List.filter_nil])

end Wakeups

namespace WorkQueue

section
variable {L : Type} {q q' : WorkQueue L} {now : Instant} {e : Deed} {g : GetterId} {k : Key}

/-- A queue that is not shut down, whose keys are covered by calls. -/
structure Alert (q : WorkQueue L) : Prop where
  notShuttingDown : q.shuttingDown = false
  covers : q.getters.Covers q.queue.length

/-- A queue where no key goes unheard, since it is alert, or shut with no one asleep. -/
def Wakeful (q : WorkQueue L) : Prop := Alert q ∨ Shut q

/-- At a new queue no key goes unheard. -/
theorem wakeful_withLimiter (name : String) (l : L) : Wakeful (withLimiter name l) :=
  .inl ⟨rfl, .nil, nofun, fun h => absurd rfl h⟩

/-- If someone is asleep, the queue is not shut down, and there is one who was called for each
key. -/
theorem Wakeful.of_asleep (h : Wakeful q) (hg : g ∈ q.getters.asleep) :
    q.shuttingDown = false ∧ q.queue.length ≤ q.getters.woken.length := by
  rcases h with h | h
  · exact ⟨h.notShuttingDown, h.covers.enough (List.ne_nil_of_mem hg)⟩
  · rw [h.asleep] at hg
    cases hg

namespace Alert

/-- Whether a queue is alert is read off its keys and those who ask. -/
theorem congr (h : Alert q) (hs : q'.shuttingDown = q.shuttingDown) (hq : q'.queue = q.queue)
    (hg : q'.getters = q.getters) : Alert q' :=
  ⟨hs.trans h.notShuttingDown, by rw [hg, hq]; exact h.covers⟩

/-- A key that comes on the queue comes with a call. -/
theorem push (h : Alert q) (hs : q'.shuttingDown = q.shuttingDown) (hq : q'.queue = q.queue ++ [k])
    (hg : q'.getters = q.getters.callOne) : Alert q' := by
  refine ⟨hs.trans h.notShuttingDown, ?_⟩
  rw [hg, hq, List.length_append, List.length_singleton]
  exact h.covers.callOne

/-- A queue stays alert when a key is added: one is called for it. -/
theorem add (h : Alert q) (k : Key) : Alert (q.add k) := by
  rcases add_cases q k with ⟨-, he⟩ | ⟨-, -, -, he⟩ | ⟨-, -, -, he⟩ <;> rw [he]
  · exact h
  · exact h.congr rfl rfl rfl
  · exact h.push rfl rfl rfl

/-- A queue stays alert when keys are added. -/
theorem foldl_add (h : Alert q) (ks : List Key) : Alert (ks.foldl WorkQueue.add q) := by
  induction ks generalizing q with
  | nil => exact h
  | cons k ks ih => exact ih (h.add k)

/-- A queue stays alert when a key is added after a delay. -/
theorem addAfter (h : Alert q) (k : Key) (now : Instant) (d : Duration) :
    Alert (q.addAfter k now d).2 := by
  rcases addAfter_cases q k now d with ⟨-, he⟩ | ⟨-, -, he⟩ | ⟨-, t, -, he⟩ <;> rw [he]
  · exact h.add k
  · exact h
  · rcases addAt_cases q k t with ⟨-, he⟩ | ⟨-, -, w, ts, b, -, he⟩ <;> rw [he]
    · exact h
    · exact h.congr rfl rfl rfl

/-- A queue stays alert when one asks: one who was called takes a key, or none is left to be
covered. -/
theorem ask (h : Alert q) (g : GetterId) : Alert (q.ask g).2 := by
  rcases ask_cases q g with ⟨hs, -⟩ | ⟨-, hq, he⟩ | ⟨-, k, ks, hq, he⟩
  · rw [h.notShuttingDown] at hs
    cases hs
  · rw [he]
    refine ⟨h.notShuttingDown, ?_⟩
    dsimp only
    rw [hq]
    exact h.covers.sleep g
  · rw [he]
    have hcovers := h.covers
    rw [hq] at hcovers
    exact ⟨h.notShuttingDown, hcovers.run g⟩

/-- A queue stays alert when work is done: one is called for a key that comes back. -/
theorem done (h : Alert q) (k : Key) : Alert (q.done k) := by
  rcases done_cases q k with ⟨-, he⟩ | ⟨-, he⟩ <;> rw [he]
  · exact h.congr rfl rfl rfl
  · exact h.push rfl rfl rfl

/-- A queue stays alert when the timer runs. -/
theorem runTimer (h : Alert q) (now : Instant) : Alert (q.runTimer now) := by
  rcases runTimer_cases q now with he | ⟨-, ts, he⟩ | ⟨-, ts, r, b, he⟩ <;> rw [he]
  · exact h
  · exact h.congr rfl rfl rfl
  · have hw : Alert { q with waiting := q.waiting.filter (fun _ t => ¬ t.reached now) } :=
      h.congr rfl rfl rfl
    exact (hw.foldl_add (q.due now)).congr rfl rfl rfl

end Alert

variable [Limiter L]

/-- Whatever is done with a queue, by anyone, no key goes unheard. -/
theorem Step.wakeful (hs : Step now q e q') (h : Wakeful q) : Wakeful q' := by
  rcases h with h | h
  · cases hs with
    | add k => exact .inl (h.add k)
    | addAfter k d => exact .inl (h.addAfter k now d)
    | addRateLimited k =>
      rcases addRateLimited_cases q k now with ⟨l, -, he⟩ | ⟨d, l, -, he⟩ <;> rw [he]
      · exact .inl (h.congr rfl rfl rfl)
      · have hl : Alert { q with limiter := l } := h.congr rfl rfl rfl
        exact .inl (hl.addAfter k now d)
    | @handOut g k q' ha | @turnAway g a q' ha _ =>
      have hask := h.ask g
      rw [ha] at hask
      exact .inl hask
    | leave g => exact .inl ⟨h.notShuttingDown, h.covers.leave g⟩
    | done k => exact .inl (h.done k)
    | shutDown => exact .inr (shut_shutDown q)
    | fire => exact .inl (h.runTimer now)
    | forget | tick => exact .inl (h.congr rfl rfl rfl)
  · exact .inr (hs.rests h).shut

end

end WorkQueue

end Prewarm
