import Prewarm.Proofs.Pool.Effort
import Prewarm.Proofs.WorkQueue.Order
import Prewarm.Proofs.WorkQueue.Wakeful

/-!
# Those who wait for a key

A pool of which all who take keys wait for one and keep it. A `Getting.Run` is whatever can happen
to it, in any order: clients put keys on the queue, say that they are done or shut the queue down,
others come to wait for a key or leave before they got one, time passes, and anything that can run
does so whatever its place in the line. With the deeds it records the keys that came on the queue.
-/

namespace Prewarm

/-! ## What a run of the timer leaves of the timers -/

namespace WorkQueue

section
variable {L : Type} {q : WorkQueue L} {now : Instant} {g : GetterId}

/-- A run of the timer that was ready is parked or has ended. -/
theorem count_ready_runTimer (q : WorkQueue L) (now : Instant) :
    (q.runTimer now).timers.count .ready ≤ q.timers.count .ready - 1 := by
  unfold runTimer
  split
  · next hr =>
    have hcount := count_ready_dropReady hr
    have hle : (dropReady q.timers).count .ready ≤ q.timers.count .ready - 1 := by omega
    dsimp only
    split
    · exact hle
    · split
      · rw [foldl_add_timers]
        exact hle
      · rw [foldl_add_timers, List.count_append]
        exact hle
  · next hno =>
    exact Nat.le_trans (Nat.le_of_eq (List.count_eq_zero_of_not_mem hno)) (Nat.zero_le _)

/-- One who asks for a key is not called any more, and the others are as they were. -/
theorem ask_woken (q : WorkQueue L) (g : GetterId) :
    (q.ask g).2.getters.woken = q.getters.woken.filter (·.1 ≠ g) := by
  rcases ask_cases q g with ⟨-, he⟩ | ⟨-, -, he⟩ | ⟨-, k, ks, -, he⟩ <;> rw [he] <;> rfl

/-- What one who asks for a key does by that. -/
def askDeed (q : WorkQueue L) (g : GetterId) : Deed :=
  match (q.ask g).1 with
  | .key k => .handOut g k
  | .closed | .asleep => .turnAway g

/-- What one who asks for a key does by that is a deed at the queue. -/
theorem step_ask [Limiter L] (q : WorkQueue L) (g : GetterId) :
    Step now q (q.askDeed g) (q.ask g).2 := by
  unfold askDeed
  split
  · next k h => exact .handOut (Prod.ext h rfl)
  · next h => exact .turnAway (Prod.ext h rfl) nofun
  · next h => exact .turnAway (Prod.ext h rfl) nofun

end

end WorkQueue

/-- Whether a task is one of those who wait for a key or of the timer. -/
def Task.IsGetting {ρ : Type} : Task ρ → Prop
  | .ask _ | .timer => True
  | .start .. | .resume .. | .finish .. => False

namespace Pool

section
variable {ω ρ L : Type} {c : Craft ω ρ} {p p' p₀ : Pool ω ρ L} {g x : GetterId} {t : Task ρ}
  {d : Option WorkQueue.Deed} {ks : List Key} {τ : WorkQueue.History}

/-- A pool without anyone who takes keys, whose queue has none. -/
def empty (now : Instant) (name : String) (l : L) (w : ω) : Pool ω ρ L :=
  { now, queue := .withLimiter name l, world := w }

/-- What one who waits for a key, or the timer, does with the queue in a task. -/
def getDeed? (p : Pool ω ρ L) : Task ρ → Option WorkQueue.Deed
  | .ask g =>
    match (p.takers.get? g).map Taker.stand with
    | some .asking => some (p.queue.askDeed g)
    | _ => none
  | .timer => some .fire
  | .start .. | .resume .. | .finish .. => none

namespace Getting

variable [Limiter L]

/-- Something that happens to those who wait for keys, with what is done with the queue. -/
inductive Step (c : Craft ω ρ) (p : Pool ω ρ L) : Option WorkQueue.Deed → Pool ω ρ L → Prop
  /-- A client does something. -/
  | act {e : WorkQueue.Deed} {q : WorkQueue L} :
      (e.isOutside = true ∨ ∃ k, e = .done k) → WorkQueue.Step p.now p.queue e q →
      Step c p (some e) ({ p with queue := q } : Pool ω ρ L).gather
  /-- Someone comes to wait for a key. -/
  | come : Step c p none (p.join .keeper).2
  /-- Someone who waits for a key leaves. -/
  | leave {g : GetterId} : p.Asks g → Step c p (some (.leave g)) (p.dismiss g)
  | pass {now : Instant} : p.now.nanos ≤ now.nanos → Step c p (some .tick) (p.moveTo now)
  | perform {t : Task ρ} {p' : Pool ω ρ L} :
      Performs c p t p' → Step c p (p.getDeed? t) p'

/-- What happened to those who wait for keys: the keys that came on the queue, what was done with
it, and the pool it leads to. -/
inductive Run (c : Craft ω ρ) (p₀ : Pool ω ρ L) :
    List Key → WorkQueue.History → Pool ω ρ L → Prop
  | start : Run c p₀ [] [] p₀
  | next {ks : List Key} {τ : WorkQueue.History} {p p' : Pool ω ρ L}
      {d : Option WorkQueue.Deed} :
      Run c p₀ ks τ p → Step c p d p' →
      Run c p₀ (ks ++ d.toList.flatMap (·.puts p'.now p.queue))
        (τ ++ d.toList.map fun e => (p'.now, e)) p'

end Getting

/-! ## Tasks -/

/-- A pool of those who wait for a key and keep it: each has been given a name, nothing but them
and the timer is in line, and none of them is forgotten. -/
structure Keeping (p : Pool ω ρ L) : Prop where
  named : ∀ g t, p.takers.get? g = some t → g < p.nextId ∧ t.role = .keeper
  line : ∀ t ∈ p.line, t.IsGetting
  resting : p.resting = []
  attentive : Attentive p

/-- A pool that no one waits in yet keeps its order. -/
theorem keeping_empty (now : Instant) (name : String) (l : L) (w : ω) :
    Keeping (empty now name l w : Pool ω ρ L) where
  named := nofun
  line := nofun
  resting := rfl
  attentive := ⟨fun g => attended_of_not nofun (by simp [Wakeups.Waits, empty,
    WorkQueue.withLimiter]), nofun, Nat.le_refl _⟩

/-- If only those who wait for keys and the timer are in line, only they are when those who were
called have come into it. -/
theorem isGetting_of_mem_gather (h : ∀ t ∈ p.line, t.IsGetting) : ∀ t ∈ p.gather.line,
    t.IsGetting := by
  intro t ht
  rcases List.mem_append.1 ht with ht | ht
  · rcases List.mem_append.1 ht with ht | ht
    · exact h t ht
    · obtain ⟨g, -, rfl⟩ := List.mem_map.1 ht
      exact trivial
  · rw [List.eq_of_mem_replicate ht]
    exact trivial

/-- Where one stands who has asked for a key to keep it, by the answer. -/
def standAfter : WorkQueue.Answer → Stand
  | .key _ => .ended true
  | .closed => .ended false
  | .asleep => .asking

/-- One who asks for a key to keep it goes to where the answer leaves it. -/
theorem askFor_keeper (c : Craft ω ρ) (hg : p.takers.get? g = some ⟨.keeper, .asking⟩) :
    ∃ w ts, askFor c p g .keeper =
        { ({ p with queue := (p.queue.ask g).2 } : Pool ω ρ L).gather with
          world := w, takers := ts } ∧
      ∀ x, ts.get? x =
        if x = g then some ⟨.keeper, standAfter (p.queue.ask g).1⟩ else p.takers.get? x := by
  unfold askFor
  split
  · next q h =>
    rw [h]
    refine ⟨p.world, p.takers, rfl, fun x => ?_⟩
    split
    · next hx => exact hx ▸ hg
    · rfl
  · next q h =>
    rw [h]
    exact ⟨_, _, rfl, fun x => Table.get?_insert ..⟩
  · next k q h =>
    rw [h]
    exact ⟨_, _, rfl, fun x => Table.get?_insert ..⟩

variable [Limiter L]

/-- A task is that of one who asks for a key, or of the timer, or it does nothing. -/
theorem Keeping.performs_cases (h : Keeping p) (hp : Performs c p t p') :
    ∃ before after, p.line = before ++ t :: after ∧
      ((∃ g w ts, t = .ask g ∧ p.Asks g ∧ p.getDeed? t = some (p.queue.askDeed g) ∧
          p' = { ({ p with
              line := before ++ after
              queue := (p.queue.ask g).2 } : Pool ω ρ L).gather with world := w, takers := ts } ∧
          ∀ x, ts.get? x =
            if x = g then some ⟨.keeper, standAfter (p.queue.ask g).1⟩ else p.takers.get? x) ∨
        (t = .timer ∧ p' = ({ p with
          line := before ++ after
          queue := p.queue.runTimer p.now } : Pool ω ρ L).gather) ∨
        ((∃ g, t = .ask g) ∧ p.getDeed? t = none ∧ p' = { p with line := before ++ after })) := by
  obtain ⟨before, after, hline, rfl⟩ := hp
  have hget : t.IsGetting := h.line t (hline ▸ List.mem_append_right _ (.head _))
  refine ⟨before, after, hline, ?_⟩
  cases t with
  | ask g =>
    rcases perform_ask_cases c ({ p with line := before ++ after } : Pool ω ρ L) g with
      ⟨r, hg, he⟩ | ⟨hno, he⟩ <;> rw [he]
    · cases (h.named g _ hg).2
      obtain ⟨w, ts, he, hts⟩ := askFor_keeper c hg
      have hg : p.takers.get? g = some ⟨.keeper, .asking⟩ := hg
      refine .inl ⟨g, w, ts, rfl, by simp [Asks, hg], by simp [getDeed?, hg], he, hts⟩
    · refine .inr (.inr ⟨⟨g, rfl⟩, ?_, rfl⟩)
      unfold getDeed?
      dsimp only
      split
      · next hg =>
        obtain ⟨⟨r, s⟩, hr, rfl⟩ := Option.map_eq_some_iff.1 hg
        exact absurd hr (hno r)
      · rfl
  | timer => exact .inr (.inl ⟨rfl, rfl⟩)
  | start | resume | finish => cases hget

/-- A task of one who waits for a key, or of the timer, keeps the order of the pool. -/
theorem Keeping.performs (h : Keeping p) (hp : Performs c p t p') : Keeping p' := by
  have hattentive : Attentive p' := by
    obtain ⟨before, after, hline, rfl⟩ := hp
    exact h.attentive.perform hline
  obtain ⟨before, after, hline, hcases⟩ := h.performs_cases hp
  have hrest : ∀ t' ∈ before ++ after, t'.IsGetting := fun t' ht' => h.line t' <| by
    rw [hline]
    exact (List.mem_append.1 ht').elim (List.mem_append_left _) fun ht' =>
      List.mem_append_right _ (List.mem_cons_of_mem _ ht')
  rcases hcases with ⟨g, w, ts, -, hg, -, rfl, hts⟩ | ⟨-, rfl⟩ | ⟨-, -, rfl⟩
  · refine ⟨fun x t' hx => ?_, isGetting_of_mem_gather hrest, h.resting, hattentive⟩
    rw [hts] at hx
    split at hx
    · next hxg =>
      obtain ⟨⟨r, s⟩, hr, -⟩ := Option.map_eq_some_iff.1 hg
      cases hx
      exact ⟨hxg ▸ (h.named g _ hr).1, rfl⟩
    · exact h.named x t' hx
  · exact ⟨h.named, isGetting_of_mem_gather hrest, h.resting, hattentive⟩
  · exact ⟨h.named, hrest, h.resting, hattentive⟩

/-! ## Everyone comes to wait -/

/-- A task of the timer may put others in line, but not the timer again. One who asks puts no one
in line. -/
theorem Keeping.performs_lt (h : Keeping p) (hp : Performs c p t p') :
    timersInLine p'.line < timersInLine p.line ∨
      timersInLine p'.line = timersInLine p.line ∧ p'.line.length < p.line.length := by
  obtain ⟨before, after, hline, hcases⟩ := h.performs_cases hp
  have htimers : timersInLine p.line = timersInLine (before ++ after) + timersInLine [t] :=
    hline ▸ timersInLine_insert before after t
  have hlength : (before ++ after).length < p.line.length := by
    rw [hline, List.length_append, List.length_append, List.length_cons]
    omega
  have hask : ∀ g, timersInLine [(Task.ask g : Task ρ)] = 0 := fun _ => rfl
  rcases hcases with ⟨g, w, ts, rfl, -, -, rfl, -⟩ | ⟨rfl, rfl⟩ | ⟨⟨g, rfl⟩, -, rfl⟩
  · refine .inr ?_
    rw [hask] at htimers
    have hcalled : ∀ x ∈ (p.queue.ask g).2.getters.woken.map Prod.fst,
        .ask x ∈ before ++ after := by
      intro x hx
      rw [WorkQueue.ask_woken] at hx
      obtain ⟨e, he, rfl⟩ := List.mem_map.1 hx
      obtain ⟨he, hne⟩ := List.mem_filter.1 he
      refine ask_mem_of_ne (t := .ask g) ?_
        (hline ▸ h.attentive.called e.1 (List.mem_map_of_mem he))
      rintro ⟨⟩
      simp at hne
    have htimed : (p.queue.ask g).2.timers.count .ready ≤ timersInLine (before ++ after) := by
      rw [WorkQueue.ask_timers]
      exact Nat.le_trans h.attentive.timed (Nat.le_of_eq htimers)
    rw [gather_eq_self hcalled htimed]
    exact ⟨htimers.symm, hlength⟩
  · refine .inl ?_
    have hready := WorkQueue.count_ready_runTimer p.queue p.now
    have htimed := h.attentive.timed
    have hone : timersInLine [(Task.timer : Task ρ)] = 1 := rfl
    rw [timersInLine_gather]
    dsimp only
    omega
  · rw [hask] at htimers
    exact .inr ⟨htimers.symm, hlength⟩

/-- In whatever order they run, tasks come to an end. -/
theorem Keeping.ends {p : Pool ω ρ L} (h : Keeping p) :
    Acc (fun p' p => ∃ t, Performs c p t p') p :=
  .intro p fun _ ⟨_, hp⟩ => (h.performs hp).ends
termination_by (timersInLine p.line, p.line.length)
decreasing_by
  rcases h.performs_lt hp with hlt | ⟨heq, hlt⟩
  · exact Prod.Lex.left _ _ hlt
  · rw [heq]
    exact Prod.Lex.right _ hlt

/-- A pool that runs its tasks in the order of the line has run them all after some number. -/
theorem exists_settle (h : Acc (fun p' p => ∃ t, Performs c p t p') p) :
    ∃ n, (settle c n p).line = [] := by
  induction h with
  | intro p _ ih =>
    cases hline : p.line with
    | nil => exact ⟨0, hline⟩
    | cons t ts =>
      obtain ⟨n, hn⟩ := ih _ ⟨t, [], ts, hline, rfl⟩
      refine ⟨n + 1, ?_⟩
      unfold settle step?
      rw [hline]
      exact hn

/-! ## Steps -/

namespace Getting

/-- Whatever happens to those who wait for keys keeps the order of the pool. -/
theorem Step.keeping (hs : Step c p d p') (h : Keeping p) : Keeping p' := by
  cases hs with
  | @act e q he hq =>
    refine ⟨h.named, isGetting_of_mem_gather h.line, h.resting, attentive_gather fun x => ?_⟩
    refine (h.attentive.attended x).congr (hq.waits_iff ?_) rfl id
    rcases he with he | ⟨k, rfl⟩
    · cases e <;> first | rfl | cases he
    · rfl
  | come =>
    refine ⟨fun x t hx => ?_, fun t ht => ?_, h.resting, h.attentive.join .keeper⟩
    · have hx : (p.takers.insert p.nextId { role := .keeper }).get? x = some t := hx
      rw [Table.get?_insert] at hx
      split at hx
      · next hxg =>
        cases hx
        exact ⟨hxg ▸ Nat.lt_succ_self _, rfl⟩
      · exact ⟨Nat.lt_succ_of_lt (h.named x t hx).1, (h.named x t hx).2⟩
    · rcases List.mem_append.1 ht with ht | ht
      · exact h.line t ht
      · rw [List.mem_singleton.1 ht]
        exact trivial
  | @leave g hg =>
    have htakers : ∀ x, (p.takers.erase g).get? x = if x = g then none else p.takers.get? x :=
      fun x => Table.get?_erase ..
    refine ⟨fun x t hx => ?_, isGetting_of_mem_gather h.line, h.resting,
      attentive_gather fun x => ?_⟩
    · have hx : (p.takers.erase g).get? x = some t := hx
      rw [htakers] at hx
      split at hx
      · cases hx
      · exact h.named x t hx
    · have hwaits : ∀ x, (p.queue.leave g).getters.Waits x ↔ x ≠ g ∧ p.queue.getters.Waits x :=
        fun x => Wakeups.waits_leave
      -- one who leaves neither asks nor waits any more
      by_cases hx : x = g
      · refine attended_of_not ?_ fun hw => ((hwaits x).1 hw).1 hx
        unfold Asks
        dsimp only
        rw [htakers, if_pos hx]
        exact (Option.some_ne_none _).symm
      · refine (h.attentive.attended x).congr ((hwaits x).trans (and_iff_right hx)) ?_ id
        exact (htakers x).trans (if_neg hx)
  | @pass now hnow =>
    refine ⟨h.named, isGetting_of_mem_gather fun t ht => ?_, ?_, attentive_gather fun x => ?_⟩
    · have hnone : p.line ++ (p.resting.filter (·.wake.reached now)).map Resting.task = p.line := by
        rw [h.resting]
        exact List.append_nil _
      exact h.line t (hnone ▸ ht)
    · exact (congrArg (List.filter _) h.resting).trans rfl
    · exact (h.attentive.attended x).congr .rfl rfl (List.mem_append_left _)
  | perform hp => exact h.performs hp

/-- What is done with the queue is what it is said to be. -/
theorem Step.queue_step (hs : Step c p d p') (h : Keeping p) :
    (d = none ∧ p'.queue = p.queue) ∨
      ∃ e, d = some e ∧ WorkQueue.Step p'.now p.queue e p'.queue := by
  cases hs with
  | act _ hq => exact .inr ⟨_, rfl, hq⟩
  | come => exact .inl ⟨rfl, rfl⟩
  | leave => exact .inr ⟨_, rfl, .leave _⟩
  | pass => exact .inr ⟨_, rfl, .tick⟩
  | perform hp =>
    obtain ⟨before, after, -, hcases⟩ := h.performs_cases hp
    rcases hcases with ⟨g, w, ts, -, -, hd, rfl, -⟩ | ⟨rfl, rfl⟩ | ⟨-, hd, rfl⟩
    · exact .inr ⟨_, hd, WorkQueue.step_ask ..⟩
    · exact .inr ⟨_, rfl, .fire⟩
    · exact .inl ⟨hd, rfl⟩

end Getting

end

end Pool

end Prewarm
