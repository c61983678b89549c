import Mathlib.Algebra.GroupWithZero.Nat
import Prewarm.Proofs.Pool.Attentive
import Prewarm.Proofs.WorkQueue.ShutDown

/-!
# What is left to run

After the queue of a pool was shut down, no work begins that was not begun or in line, so the tasks
that can still run can be counted: what comes of those in line, of the work that rests and of the
runs of the timer that are parked (`effort`). Each task that runs makes the count less
(`Performs.effort_lt`), and nothing that happens makes it more (`Step.effort_le`).

It is counted with what a pool gathers after each step, which is nothing while its queue is shut
(`gather_eq_self`), unless runs of the timer that were parked are ready now.
-/

namespace Prewarm

/-! ## Timers and outcomes in a shut queue -/

namespace WorkQueue

section
variable {L : Type} {q : WorkQueue L}

/-- The runs of the timer that are parked. -/
def parked (q : WorkQueue L) : Nat := q.timers.countP TimerRun.isParked

/-- A run of the timer is ready or parked. -/
theorem count_ready_add_parked (q : WorkQueue L) :
    q.timers.count .ready + q.parked = q.timers.length := by
  unfold parked
  induction q.timers with
  | nil => rfl
  | cons t ts ih => cases t <;> simp_all [TimerRun.isParked, List.countP_cons] <;> omega

theorem length_wakeTimers (test : Instant → Bool) (n : Nat) (ts : List TimerRun) :
    (wakeTimers test n ts).length = ts.length := by
  fun_induction wakeTimers test n ts <;> simp_all

/-- Runs of the timer become ready, and none is parked. -/
theorem count_ready_le_wakeTimers (test : Instant → Bool) (n : Nat) (ts : List TimerRun) :
    ts.count .ready ≤ (wakeTimers test n ts).count .ready := by
  fun_induction wakeTimers test n ts with
  | case1 | case2 => exact Nat.le_refl _
  | case3 n ts ih => simpa using ih
  | case4 n t ts ht ih =>
    rw [List.count_cons_self, List.count_cons_of_ne (by simp)]
    exact Nat.le_succ_of_le ih
  | case5 n t ts ht ih =>
    rw [List.count_cons_of_ne (by simp), List.count_cons_of_ne (by simp)]
    exact ih

theorem count_ready_dropReady {ts : List TimerRun} (h : .ready ∈ ts) :
    (dropReady ts).count .ready + 1 = ts.count .ready := by
  induction ts with
  | nil => cases h
  | cons t ts ih =>
    cases t with
    | ready => simp [dropReady]
    | parked t =>
      have hts : .ready ∈ ts := by simpa using h
      simpa [dropReady] using ih hts

theorem countP_isParked_dropReady (ts : List TimerRun) :
    (dropReady ts).countP TimerRun.isParked = ts.countP TimerRun.isParked := by
  induction ts with
  | nil => rfl
  | cons t ts ih => cases t <;> simp_all [dropReady, TimerRun.isParked, List.countP_cons]

/-- A key that is handed back to a shut queue changes no timer and calls no one. -/
theorem Shut.handBack [Limiter L] (h : Shut q) (k : Key) (o : Outcome) (now : Instant) :
    Shut (q.handBack k o now).2 ∧ (q.handBack k o now).2.timers = q.timers ∧
      (q.handBack k o now).2.getters.woken = q.getters.woken := by
  unfold WorkQueue.handBack
  split
  · obtain ⟨ks, b, he⟩ := h.done_eq k
    have hdone : Step now q (.done k) (q.done k) := .done k
    obtain ⟨l, hl⟩ := (hdone.rests h).shut.addRateLimited_eq k now
    rw [hl, he]
    exact ⟨⟨h.shuttingDown, h.waiting, h.asleep⟩, rfl, rfl⟩
  · obtain ⟨ks, b, he⟩ := Shut.done_eq (q := q.forget k) ⟨h.shuttingDown, h.waiting, h.asleep⟩ k
    rw [he]
    exact ⟨⟨h.shuttingDown, h.waiting, h.asleep⟩, rfl, rfl⟩

/-- What others do with a shut queue makes runs of the timer ready at most. -/
theorem Shut.timers_of_outside [Limiter L] {q' : WorkQueue L} {now : Instant} {e : Deed}
    (h : Shut q) (hs : Step now q e q') (he : e.isOutside = true) :
    q'.timers.length = q.timers.length ∧ q.timers.count .ready ≤ q'.timers.count .ready := by
  cases hs with
  | add k => rw [h.add_eq k]; exact ⟨rfl, Nat.le_refl _⟩
  | addAfter k d => rw [h.addAfter_eq k now d]; exact ⟨rfl, Nat.le_refl _⟩
  | addRateLimited k =>
    obtain ⟨l, he⟩ := h.addRateLimited_eq k now
    rw [he]
    exact ⟨rfl, Nat.le_refl _⟩
  | forget k => exact ⟨rfl, Nat.le_refl _⟩
  | shutDown =>
    rw [h.shutDown_eq]
    unfold callTimer
    split
    · exact ⟨length_wakeTimers .., count_ready_le_wakeTimers ..⟩
    · exact ⟨rfl, Nat.le_refl _⟩
  | handOut | turnAway | leave | done | tick | fire => cases he

end

end WorkQueue

/-- The most tasks that come of one in line, itself included, while no key is handed out. -/
def Task.weight {ρ : Type} : Task ρ → Nat
  | .start .. => 3
  | .resume .. => 2
  | .ask _ | .finish .. | .timer => 1

namespace Pool

section
variable {ω ρ L : Type} {c : Craft ω ρ} {p p' : Pool ω ρ L} {g : GetterId} {r : Role} {o : Outcome}

/-- The most tasks that come of those in line and of the work that rests. -/
def load (p : Pool ω ρ L) : Nat := (p.line.map Task.weight).sum + 2 * p.resting.length

/-- The most tasks that can still run. -/
def effort (p : Pool ω ρ L) : Nat := p.load + p.queue.parked

/-- A pool that is attentive and whose queue is shut. -/
structure Closing (p : Pool ω ρ L) : Prop where
  shut : p.queue.Shut
  attentive : Attentive p

theorem load_insert {t : Task ρ} {before after : List (Task ρ)}
    (hline : p.line = before ++ t :: after) :
    p.load = ({ p with line := before ++ after } : Pool ω ρ L).load + t.weight := by
  unfold load
  rw [hline]
  simp only [List.map_append, List.map_cons, List.sum_append, List.sum_cons]
  omega

theorem load_concat (p : Pool ω ρ L) (t : Task ρ) :
    ({ p with line := p.line ++ [t] } : Pool ω ρ L).load = p.load + t.weight := by
  have hload := load_insert (p := ({ p with line := p.line ++ [t] } : Pool ω ρ L)) rfl
  rwa [List.append_nil] at hload

theorem load_rest (p : Pool ω ρ L) (r : Resting ρ) :
    ({ p with resting := p.resting ++ [r] } : Pool ω ρ L).load = p.load + 2 := by
  unfold load
  rw [List.length_append, List.length_singleton]
  dsimp only
  omega

/-- Work whose rest is over is as much to run as before. -/
theorem load_due (p : Pool ω ρ L) (now : Instant) :
    ({ p with
      now := now
      resting := p.resting.filter (fun r => ¬ r.wake.reached now)
      line := p.line ++ (p.resting.filter (·.wake.reached now)).map Resting.task } :
        Pool ω ρ L).load = p.load := by
  have hdue : ∀ rs : List (Resting ρ),
      ((rs.map Resting.task).map Task.weight).sum = 2 * rs.length := by
    intro rs
    induction rs with
    | nil => rfl
    | cons r rs ih =>
      rw [List.map_cons, List.map_cons, List.sum_cons, ih, List.length_cons]
      exact (Nat.add_comm _ _).trans (Nat.mul_succ 2 _).symm
  have hsplit := (List.filter_append_perm (fun r : Resting ρ => r.wake.reached now)
    p.resting).length_eq
  rw [List.length_append] at hsplit
  unfold load
  simp only [List.map_append, List.sum_append, hdue]
  simp only [Bool.not_eq_true, Bool.decide_eq_false] at hsplit ⊢
  omega

theorem load_gather (hcalled : ∀ g ∈ p.queue.getters.woken.map Prod.fst, .ask g ∈ p.line) :
    p.gather.load = p.load + (p.queue.timers.count .ready - timersInLine p.line) := by
  rw [gather_of_called hcalled]
  unfold load
  simp only [List.map_append, List.map_replicate, Task.weight, List.sum_append,
    List.sum_replicate_nat]
  omega

/-! ## Tasks -/

/-- One who asks a shut queue for a key ends, and nothing else changes. -/
theorem askFor_of_shut (c : Craft ω ρ) (g : GetterId) (r : Role) (hq : p.queue.Shut)
    (hcalled : ∀ x ≠ g, x ∈ p.queue.getters.woken.map Prod.fst → .ask x ∈ p.line)
    (htimed : p.queue.timers.count .ready ≤ timersInLine p.line) :
    ∃ w, askFor c p g r =
      { p with
        world := w
        queue := { p.queue with getters := p.queue.getters.run g }
        takers := p.takers.insert g ⟨r, .ended false⟩ } := by
  have hgather : ({ p with
      queue := { p.queue with getters := p.queue.getters.run g }
      takers := p.takers.insert g ⟨r, .ended false⟩ } : Pool ω ρ L).gather = _ :=
    gather_eq_self (fun x hx => by
      obtain ⟨e, he, rfl⟩ := List.mem_map.1 hx
      obtain ⟨he, hne⟩ := List.mem_filter.1 he
      exact hcalled e.1 (by simpa using hne) (List.mem_map_of_mem he)) htimed
  unfold askFor
  rw [hq.ask_eq g]
  cases r with
  | keeper =>
    let w := c.kept p.now g none p.world
    exact ⟨w, congrArg (fun p : Pool ω ρ L => { p with world := w }) hgather⟩
  | helper | worker => exact ⟨p.world, hgather⟩

variable [Limiter L]

/-- One who hands a key back to a shut queue ends, and puts nothing in line. -/
theorem finish_of_shut (c : Craft ω ρ) (g : GetterId) (o : Outcome) (hq : p.queue.Shut)
    (hcalled : ∀ x ∈ p.queue.getters.woken.map Prod.fst, .ask x ∈ p.line)
    (htimed : p.queue.timers.count .ready ≤ timersInLine p.line) :
    (finish c p g o).line = p.line ∧ (finish c p g o).resting = p.resting ∧
      (finish c p g o).queue.timers = p.queue.timers := by
  unfold finish tryQueue
  split
  · next r k hg =>
    obtain ⟨hshut, htimers, hwoken⟩ := hq.handBack k o p.now
    dsimp only
    generalize p.queue.handBack k o p.now = res at hshut htimers hwoken
    obtain ⟨res, q⟩ := res
    dsimp only at hshut htimers hwoken
    rw [← htimers] at htimed
    rw [← hwoken] at hcalled
    have hgather : ({ p with queue := q } : Pool ω ρ L).gather = { p with queue := q } :=
      gather_eq_self hcalled htimed
    rw [hgather]
    cases res with
    | error e => exact ⟨rfl, rfl, htimers⟩
    | ok u =>
      cases r with
      | worker =>
        obtain ⟨w, he⟩ := askFor_of_shut
          (p := ({ p with queue := q } : Pool ω ρ L).place g ⟨.worker, .asking⟩) c g .worker hshut
          (fun x _ => hcalled x) htimed
        dsimp only
        rw [he]
        exact ⟨rfl, rfl, htimers⟩
      | keeper | helper => exact ⟨rfl, rfl, htimers⟩
  · exact ⟨rfl, rfl, rfl⟩

/-- A task that is not work on a key puts nothing in line and parks no run of the timer. -/
theorem perform_of_shut {t : Task ρ} (c : Craft ω ρ) (hq : p.queue.Shut)
    (hcalled : ∀ x, t ≠ .ask x → x ∈ p.queue.getters.woken.map Prod.fst → .ask x ∈ p.line)
    (htimed : p.queue.timers.count .ready ≤ timersInLine p.line + timersInLine [t])
    (ht : ∀ g k, t.job? ≠ some ⟨g, some k⟩) :
    (perform c p t).line = p.line ∧ (perform c p t).resting = p.resting ∧
      (perform c p t).queue.parked = p.queue.parked := by
  cases t with
  | ask g =>
    rcases perform_ask_cases c p g with ⟨r, -, he⟩ | ⟨-, he⟩ <;> rw [he]
    · obtain ⟨w, he⟩ := askFor_of_shut c g r hq
        (fun x hx => hcalled x fun e => hx (by cases e; rfl)) htimed
      rw [he]
      exact ⟨rfl, rfl, rfl⟩
    · exact ⟨rfl, rfl, rfl⟩
  | start g k | resume g k rest => exact absurd rfl (ht g k)
  | finish g o =>
    obtain ⟨hline, hresting, htimers⟩ :=
      finish_of_shut c g o hq (fun x => hcalled x (by simp)) htimed
    exact ⟨hline, hresting, congrArg (List.countP _) htimers⟩
  | timer =>
    unfold perform onQueue
    dsimp only
    rcases hq.runTimer_eq p.now with ⟨he, hno⟩ | ⟨he, hr⟩ <;> rw [he, gather_eq_self]
    · exact ⟨rfl, rfl, rfl⟩
    · exact fun x => hcalled x (by simp)
    · rw [List.count_eq_zero_of_not_mem hno]
      exact Nat.zero_le _
    · exact ⟨rfl, rfl, WorkQueue.countP_isParked_dropReady _⟩
    · exact fun x => hcalled x (by simp)
    · have hcount := WorkQueue.count_ready_dropReady hr
      have hone : timersInLine [(Task.timer : Task ρ)] = 1 := rfl
      dsimp only
      omega

/-- What comes of a task weighs less than the task. -/
theorem load_perform {t : Task ρ} (c : Craft ω ρ) (hq : p.queue.Shut)
    (hcalled : ∀ x, t ≠ .ask x → x ∈ p.queue.getters.woken.map Prod.fst → .ask x ∈ p.line)
    (htimed : p.queue.timers.count .ready ≤ timersInLine p.line + timersInLine [t]) :
    (perform c p t).load < p.load + t.weight ∧
      (perform c p t).queue.parked = p.queue.parked := by
  cases t with
  | start g k =>
    unfold perform
    dsimp only
    split
    · next o w _ =>
      have hload := load_concat p (.finish g o)
      exact ⟨Nat.lt_of_le_of_lt (Nat.le_of_eq hload) (Nat.add_lt_add_left (by decide : 1 < 3) _),
        rfl⟩
    · next wake rest w _ =>
      have hload := load_rest p ⟨wake, g, k, rest⟩
      exact ⟨Nat.lt_of_le_of_lt (Nat.le_of_eq hload) (Nat.add_lt_add_left (by decide : 2 < 3) _),
        rfl⟩
  | resume g k rest =>
    have hload := load_concat p (.finish g (c.resume p.now k rest p.world).1)
    exact ⟨Nat.lt_of_le_of_lt (Nat.le_of_eq hload) (Nat.add_lt_add_left (by decide : 1 < 2) _),
      rfl⟩
  | ask | finish | timer =>
    obtain ⟨hline, hresting, hparked⟩ := perform_of_shut c hq hcalled htimed (by simp [Task.job?])
    refine ⟨?_, hparked⟩
    rw [load, hline, hresting]
    exact Nat.lt_add_one _

/-- One task of a pool runs, whatever its place in the line. -/
def Performs (c : Craft ω ρ) (p : Pool ω ρ L) (t : Task ρ) (p' : Pool ω ρ L) : Prop :=
  ∃ before after, p.line = before ++ t :: after ∧
    p' = perform c { p with line := before ++ after } t

/-- A task that runs leaves less to run, and parks no run of the timer. One that is not work on a
key just leaves the line. -/
theorem Performs.load_lt {t : Task ρ} (h : Performs c p t p') (hp : Closing p) :
    p'.load < p.load ∧ p'.queue.parked = p.queue.parked ∧
      ((∀ g k, t.job? ≠ some ⟨g, some k⟩) → ∀ j ∈ p'.jobs, j ∈ p.jobs) := by
  obtain ⟨before, after, hline, rfl⟩ := h
  have hcalled : ∀ x, t ≠ .ask x → x ∈ p.queue.getters.woken.map Prod.fst →
      .ask x ∈ before ++ after := fun x hx hmem =>
    ask_mem_of_ne hx (hline ▸ hp.attentive.called x hmem)
  have htimed : p.queue.timers.count .ready ≤
      timersInLine (before ++ after) + timersInLine [t] := by
    rw [← timersInLine_insert, ← hline]
    exact hp.attentive.timed
  let q : Pool ω ρ L := { p with line := before ++ after }
  obtain ⟨hload, hparked⟩ := load_perform (p := q) c hp.shut hcalled htimed
  rw [load_insert hline]
  refine ⟨hload, hparked, fun ht j hj => ?_⟩
  obtain ⟨hline', hresting, -⟩ := perform_of_shut (p := q) c hp.shut hcalled htimed ht
  rw [jobs, hline', hresting] at hj
  have hinsert := (jobs_insert p before after t).mem_iff (a := j)
  rw [← hline] at hinsert
  exact hinsert.2 (List.mem_append_right _ hj)

theorem Performs.effort_lt {t : Task ρ} (h : Performs c p t p') (hp : Closing p) :
    p'.effort < p.effort := by
  obtain ⟨hload, hparked, -⟩ := h.load_lt hp
  unfold effort
  omega

/-! ## Whatever happens -/

variable {ds : List WorkQueue.Deed} {τ : WorkQueue.History}

omit [Limiter L] in
/-- Runs of the timer that become ready are in line instead of parked. -/
theorem effort_gather_le (hcalled : ∀ g ∈ p.queue.getters.woken.map Prod.fst, .ask g ∈ p.line)
    {q : WorkQueue L} (htimed : q.timers.count .ready ≤ timersInLine p.line)
    (hlength : p.queue.timers.length = q.timers.length)
    (hready : q.timers.count .ready ≤ p.queue.timers.count .ready) :
    p.gather.effort ≤ p.load + q.parked := by
  have hsum := WorkQueue.count_ready_add_parked p.queue
  have hsum' := WorkQueue.count_ready_add_parked q
  have hgather : p.gather.effort = p.gather.load + p.queue.parked := rfl
  rw [hgather, load_gather hcalled]
  omega

/-- Nothing that happens makes more to run, once the queue is shut. -/
theorem Step.effort_le (hs : Step c p ds p') (hp : Closing p) : p'.effort ≤ p.effort := by
  cases hs with
  | @notify d q hd hq =>
    obtain ⟨hlength, hready⟩ := hp.shut.timers_of_outside hq hd
    have hcalled : ∀ g ∈ q.getters.woken.map Prod.fst, .ask g ∈ p.line := fun g hg => by
      obtain ⟨e, he, rfl⟩ := List.mem_map.1 hg
      exact hp.attentive.called e.1 (List.mem_map_of_mem ((hq.rests hp.shut).woken e he))
    exact effort_gather_le (p := ({ p with queue := q } : Pool ω ρ L)) hcalled hp.attentive.timed
      hlength hready
  | perform before after hline hperform =>
    exact Nat.le_of_lt (Performs.effort_lt ⟨before, after, hline, hperform⟩ hp)
  | @pass now _ =>
    have hle := effort_gather_le (q := p.queue)
      (p := { p with
        now := now
        queue := p.queue.tick now
        resting := p.resting.filter (fun r => ¬ r.wake.reached now)
        line := p.line ++ (p.resting.filter (·.wake.reached now)).map Resting.task })
      (fun g hg => List.mem_append_left _ (hp.attentive.called g hg))
      (Nat.le_trans hp.attentive.timed (timersInLine_le_append _ _))
      (WorkQueue.length_wakeTimers ..) (WorkQueue.count_ready_le_wakeTimers ..)
    exact Nat.le_trans hle (Nat.add_le_add_right (Nat.le_of_eq (load_due p now)) _)
  | world w => exact Nat.le_refl _

end

end Pool

end Prewarm
