import Mathlib.Algebra.Order.BigOperators.Group.List
import Mathlib.Algebra.Order.Group.Nat
import Mathlib.Data.List.Nodup
import Prewarm.Controller
import Prewarm.Proofs.Pool.Discipline
import Prewarm.Proofs.Pool.Effort

/-!
# Pools that shut down

Once the queue of a pool was shut down, the pool works off what its workers have and takes nothing
new, until it has returned (`Returned`): none of its workers asks for a key or works on one. When no
work goes on any more, it returns as soon as those in line have run (`returned_settle`). That work
ends needs that something runs as long as anything is in line, and that the clock goes on (`Fair`):
then what is left to run runs out, since each task makes it less (`Fair.returned`). Together with
what holds of the queue this is `shutdown_drains`.
-/

namespace Prewarm

namespace Pool

section
variable {ω ρ L : Type} {c : Craft ω ρ} {l : L} {name : String} {n m : Nat} {now : Instant} {w : ω}
  {p p' : Pool ω ρ L} {g : GetterId} {k : Key} {τ σ : WorkQueue.History} {js : List Job}
  {ds : List WorkQueue.Deed} {f : Nat → Pool ω ρ L}

/-- Whether the workers of a pool have ended: none of them asks for a key or works on one. -/
def Returned (p : Pool ω ρ L) : Prop := ∀ g, ¬ p.Asks g ∧ p.worksOn? g = none

variable [Limiter L]

/-! ## Work that is not dropped -/

/-- One who works on a key has work on it under way, or work that has ended and is in line to be
handed back. -/
theorem Disciplined.underWay_or_finish (h : Disciplined name l n τ p.jobs p)
    (hg : p.worksOn? g = some k) : (g, k) ∈ p.underWay ∨ ∃ o, .finish g o ∈ p.line := by
  obtain ⟨⟨g, key⟩, hj, rfl⟩ := h.assigned.covers g k hg
  cases key with
  | none => exact .inr (mem_jobs_none.1 hj)
  | some x =>
    obtain ⟨y, hy, hjy⟩ := h.assigned.fits _ hj
    cases hjy x rfl
    cases hg.symm.trans hy
    exact .inl (mem_underWay.2 hj)

/-- There is work as long as workers have keys. -/
theorem Disciplined.jobs_eq_nil_iff (h : Disciplined name l n τ p.jobs p) :
    p.jobs = [] ↔ p.queue.processing = [] := by
  constructor <;> intro hnil <;> refine List.eq_nil_iff_forall_not_mem.2 fun x hx => ?_
  · obtain ⟨g, hg⟩ := (h.assigned.owned x).1 hx
    obtain ⟨j, hj, -⟩ := h.assigned.covers g x hg
    exact List.not_mem_nil (hnil ▸ hj)
  · obtain ⟨k, hk, -⟩ := h.assigned.fits x hx
    exact List.not_mem_nil (hnil ▸ (h.assigned.owned k).2 ⟨_, hk⟩)

omit [Limiter L] in
/-- Only one who hands a key back says that it is done. -/
theorem mem_queueDeeds_done {t : Task ρ} (h : .done k ∈ p.queueDeeds p' t) :
    ∃ g o, t = .finish g o ∧ p.worksOn? g = some k := by
  have hask : ∀ g, .done k ∉ p'.askDeeds g := fun g hk => by
    unfold askDeeds at hk
    split at hk <;> simp at hk
  unfold queueDeeds at h
  split at h
  · split at h
    · exact absurd h (hask _)
    · cases h
  · next g o =>
    split at h
    · next x hx =>
      have hback : .done k ∈ handBackDeeds x o := (List.mem_append.1 h).resolve_right (hask g)
      unfold handBackDeeds at hback
      split at hback <;> simp at hback <;> exact ⟨g, o, rfl, hback ▸ hx⟩
    · cases h
  · simp at h
  · cases h
  · cases h

/-- A key is said to be done only after the work on it has ended. -/
theorem Disciplined.not_underWay_of_done (h : Disciplined name l n τ p.jobs p)
    (hs : Step c p ds p') (hk : .done k ∈ ds) : (g, k) ∉ p.underWay := by
  intro hmem
  have hj := mem_underWay.1 hmem
  cases hs with
  | @notify d q hd hq =>
    cases List.mem_singleton.1 hk
    cases hd
  | @perform t before after p' hline hp =>
    obtain ⟨x, o, rfl, hx⟩ := mem_queueDeeds_done hk
    obtain ⟨y, hy, hjy⟩ := h.assigned.fits _ hj
    cases hjy k rfl
    obtain rfl : x = g := h.assigned.alone x g k hx hy
    have hend : ⟨x, none⟩ ∈ p.jobs := mem_jobs_none.2 ⟨o, by rw [hline]; simp⟩
    cases List.inj_on_of_nodup_map h.assigned.nodup hj hend rfl
  | pass => simp at hk
  | world w => cases hk

/-! ## The end -/

/-- One who still asks stands in line to be told that there are no keys any more. -/
theorem Disciplined.told (h : Disciplined name l n τ js p) (hp : Closing p) (hg : p.Asks g) :
    ∃ before after, p.line = before ++ .ask g :: after ∧
      (Pool.perform c { p with line := before ++ after } (.ask g)).takers.get? g =
        some ⟨.worker, .ended false⟩ := by
  have hmem : .ask g ∈ p.line := (hp.attentive.ask_mem hg).resolve_right fun hmem => by
    rw [hp.shut.asleep] at hmem
    cases hmem
  obtain ⟨before, after, hline⟩ := List.append_of_mem hmem
  refine ⟨before, after, hline, ?_⟩
  rcases perform_ask_cases c ({ p with line := before ++ after } : Pool ω ρ L) g with
    ⟨r, hr, he⟩ | ⟨hno, -⟩
  · have hcalled : ∀ x ≠ g, x ∈ p.queue.getters.woken.map Prod.fst → .ask x ∈ before ++ after :=
      fun x hx hw => ask_mem_of_ne (fun e => hx (by cases e; rfl))
        (hline ▸ hp.attentive.called x hw)
    have htimed : p.queue.timers.count .ready ≤ timersInLine (before ++ after) :=
      Nat.le_trans hp.attentive.timed
        (Nat.le_of_eq (hline ▸ timersInLine_insert before after (.ask g)))
    obtain ⟨w, hw⟩ := Pool.askFor_of_shut (p := { p with line := before ++ after }) c g r hp.shut
      hcalled htimed
    cases h.staffed.role hr
    rw [he, hw]
    exact Table.get?_insert_self ..
  · obtain ⟨⟨r, s⟩, hr, rfl⟩ := Option.map_eq_some_iff.1 hg
    exact absurd hr (hno r)

theorem Disciplined.jobs_of_returned (h : Disciplined name l n τ p.jobs p) (hp : p.Returned) :
    p.jobs = [] := by
  refine h.jobs_eq_nil_iff.2 (List.eq_nil_iff_forall_not_mem.2 fun k hk => ?_)
  obtain ⟨g, hg⟩ := (h.assigned.owned k).1 hk
  rw [(hp g).2] at hg
  cases hg

/-- If nothing is in line and no work goes on, the workers have ended. -/
theorem Disciplined.returned (h : Disciplined name l n τ p.jobs p) (hp : Closing p)
    (hline : p.line = []) (hend : p.underWay = []) : p.Returned := by
  refine fun g => ⟨fun hg => ?_, ?_⟩
  · rcases hp.attentive.ask_mem hg with hmem | hmem
    · rw [hline] at hmem
      cases hmem
    · rw [hp.shut.asleep] at hmem
      cases hmem
  · rw [Option.eq_none_iff_forall_ne_some]
    intro k hg
    rcases h.underWay_or_finish hg with hmem | ⟨o, hmem⟩
    · rw [hend] at hmem
      cases hmem
    · rw [hline] at hmem
      cases hmem

/-- Workers who have ended stay so. -/
theorem Step.returned (hs : Step c p ds p') (hp : p.Returned) : p'.Returned := by
  have hkeep : p'.takers = p.takers → p'.Returned := fun ht g => by
    rw [Asks, worksOn?, ht]
    exact hp g
  cases hs with
  | notify => exact hkeep rfl
  | @perform t before after p' hline hp' =>
    subst hp'
    cases t with
    | ask g =>
      rcases perform_ask_cases c ({ p with line := before ++ after } : Pool ω ρ L) g with
        ⟨r, hg, -⟩ | ⟨-, he⟩
      · exact absurd (by simp [Asks, hg]) (hp g).1
      · exact hkeep ((congrArg takers he).trans rfl)
    | start g k =>
      exact hkeep (perform_start_eq c ({ p with line := before ++ after } : Pool ω ρ L) g k).2
    | resume | timer => exact hkeep rfl
    | finish g o =>
      have he := finish_eq_self (p := { p with line := before ++ after }) c o (hp g).2
      exact hkeep ((congrArg takers he).trans rfl)
  | pass => exact hkeep rfl
  | world => exact hkeep rfl

/-! ## Runs after the queue was shut down -/

section
variable (h : Run c (opening now name l w m) τ p) (h' : Run c p σ p')
include h h'

/-- What is done with the queue in a part of a run. -/
theorem Run.steps_after : WorkQueue.Steps p.queue σ p'.queue :=
  h.disciplined.run.steps_after (h.trans h').disciplined.run

theorem Run.closing (hq : p.queue.Shut) : Closing p' :=
  ⟨((h.steps_after h').rests hq).shut, (h.trans h').attentive⟩

end

omit [Limiter L] in
theorem not_mem_jobs (hend : p.underWay = []) : ⟨g, some k⟩ ∉ p.jobs := fun hj =>
  List.not_mem_nil (hend ▸ mem_underWay.2 hj)

omit [Limiter L] in
/-- When no work goes on, each task that is left stands in line. -/
theorem load_of_underWay_nil (hend : p.underWay = []) : p.load = p.line.length := by
  have hweight : ∀ t ∈ p.line, t.weight = 1 := by
    intro t ht
    have hline := fun j hj => List.mem_append_left (p.resting.map Resting.job)
      (List.mem_filterMap.2 ⟨t, ht, (hj : t.job? = some j)⟩)
    cases t with
    | start g k | resume g k => exact absurd (hline _ rfl) (not_mem_jobs hend)
    | ask | finish | timer => rfl
  have hresting : p.resting = [] := List.eq_nil_iff_forall_not_mem.2 fun r hr =>
    not_mem_jobs hend (List.mem_append_right _ (List.mem_map_of_mem hr))
  unfold load
  rw [hresting, List.map_congr_left hweight]
  simp

/-- When no work goes on any more, the workers have ended as soon as those in line have run, and no
time passes until then. -/
theorem returned_settle (h : Run c (opening now name l w m) τ p) (hq : p.queue.Shut)
    (hend : p.underWay = []) : (settle c p.line.length p).Returned := by
  -- no task brings work back, and each makes the line shorter
  suffices hsuff : ∀ fuel p τ, Run c (opening now name l w m) τ p → p.queue.Shut →
      p.underWay = [] → p.load ≤ fuel → (settle c fuel p).Returned from
    hsuff _ p τ h hq hend (Nat.le_of_eq (load_of_underWay_nil hend))
  have hnil : ∀ p τ, Run c (opening now name l w m) τ p → p.queue.Shut → p.underWay = [] →
      p.line = [] → p.Returned := fun p τ h hq hend hline =>
    h.disciplined.returned ⟨hq, h.attentive⟩ hline hend
  intro fuel
  induction fuel with
  | zero =>
    intro p τ h hq hend hfuel
    rw [load_of_underWay_nil hend, Nat.le_zero, List.length_eq_zero_iff] at hfuel
    exact hnil p τ h hq hend hfuel
  | succ fuel ih =>
    intro p τ h hq hend hfuel
    unfold settle step?
    cases hline : p.line with
    | nil => exact hnil p τ h hq hend hline
    | cons t ts =>
      have hrun := Run.start.next (Step.perform (c := c) [] ts hline rfl)
      obtain ⟨hless, -, hjobs⟩ :=
        Performs.load_lt (c := c) ⟨[], ts, hline, rfl⟩ ⟨hq, h.attentive⟩
      refine ih _ _ (h.trans hrun) (h.closing hrun hq).shut ?_
        (Nat.le_of_lt_succ (Nat.lt_of_lt_of_le hless hfuel))
      have hjob : ∀ g k, t.job? ≠ some ⟨g, some k⟩ := fun g k ht => not_mem_jobs hend
        (List.mem_append_left _ (List.mem_filterMap.2 ⟨t, hline ▸ .head _, ht⟩))
      exact List.eq_nil_iff_forall_not_mem.2 fun e he =>
        not_mem_jobs hend (hjobs hjob _ (mem_underWay.1 he))

/-! ## Fair courses -/

/-- An endless course of a pool, one step after the other, in which whatever happens there is later
a task that runs if there is one in line, and in which the clock passes every instant. -/
structure Fair (c : Craft ω ρ) (f : Nat → Pool ω ρ L) : Prop where
  step : ∀ n, ∃ ds, Step c (f n) ds (f (n + 1))
  runs : ∀ n, (f n).line ≠ [] → ∃ i ≥ n, ∃ t, Performs c (f i) t (f (i + 1))
  passes : ∀ (t : Instant) (n : Nat), ∃ i ≥ n, t.nanos ≤ (f i).now.nanos

section
variable (hf : Fair c f)
include hf

theorem Fair.run {i j : Nat} (hij : i ≤ j) : ∃ σ, Run c (f i) σ (f j) := by
  induction hij with
  | refl => exact ⟨[], .start⟩
  | @step j _ ih =>
    obtain ⟨σ, hσ⟩ := ih
    obtain ⟨ds, hs⟩ := hf.step j
    exact ⟨_, hσ.next hs⟩

/-- Work whose rest is over does not rest any longer, if the clock has moved since. -/
theorem Fair.rests {i j : Nat} (hij : i ≤ j) (hidle : ∀ j ≥ i, (f j).line = []) :
    ∀ r ∈ (f j).resting, r ∈ (f i).resting ∧
      ((f j).now = (f i).now ∨ (f j).now.nanos < r.wake.nanos) := by
  induction hij with
  | refl => exact fun r hr => ⟨hr, .inl rfl⟩
  | @step j hij ih =>
    obtain ⟨ds, hs⟩ := hf.step j
    generalize f (j + 1) = p' at hs
    cases hs with
    | notify => exact ih
    | perform before after hline =>
      rw [hidle j hij] at hline
      simp at hline
    | @pass t _ =>
      intro r hr
      obtain ⟨hr, hwake⟩ := List.mem_filter.1 hr
      have hlater : t.nanos < r.wake.nanos := by simpa [Instant.reached] using hwake
      exact ⟨(ih r hr).1, .inr hlater⟩
    | world => exact ih

/-- If nothing is in line any more, no work rests for ever. -/
theorem Fair.exists_resting_nil {i : Nat} (hidle : ∀ j ≥ i, (f j).line = []) :
    ∃ j ≥ i, (f j).resting = [] := by
  obtain ⟨j, hij, hj⟩ := hf.passes
    ⟨(f i).now.nanos + 1 + ((f i).resting.map (·.wake.nanos)).sum⟩ i
  refine ⟨j, hij, List.eq_nil_iff_forall_not_mem.2 fun r hr => ?_⟩
  obtain ⟨hr, hwake⟩ := hf.rests hij hidle r hr
  have hle := List.le_sum_of_mem (List.mem_map_of_mem hr (f := (·.wake.nanos)))
  rcases hwake with hwake | hwake
  · rw [hwake] at hj
    dsimp only at hj
    omega
  · dsimp only at hj hle
    omega

/-- In a fair course the workers end, once the queue was shut down. -/
theorem Fair.returned (h : Run c (opening now name l w m) τ (f 0)) (hq : (f 0).queue.Shut) :
    ∃ i, ∀ j ≥ i, (f j).Returned := by
  have hrun : ∀ i, ∃ τ, Run c (opening now name l w m) τ (f i) := fun i => by
    obtain ⟨σ, hσ⟩ := hf.run (Nat.zero_le i)
    exact ⟨_, h.trans hσ⟩
  have hclosing : ∀ i, Closing (f i) := fun i => by
    obtain ⟨σ, hσ⟩ := hf.run (Nat.zero_le i)
    exact h.closing hσ hq
  have hle : ∀ {i j}, i ≤ j → (f j).effort ≤ (f i).effort := fun hij => by
    induction hij with
    | refl => exact Nat.le_refl _
    | @step j _ ih =>
      obtain ⟨ds, hs⟩ := hf.step j
      exact Nat.le_trans (hs.effort_le (hclosing j)) ih
  -- as long as anything comes in line, something runs and leaves less to run
  have hquiet : ∀ i, ∃ j ≥ i, (f j).line = [] ∧ (f j).resting = [] := by
    intro i
    induction he : (f i).effort using Nat.strongRecOn generalizing i with
    | ind e ih =>
      by_cases hidle : ∀ j ≥ i, (f j).line = []
      · obtain ⟨j, hij, hj⟩ := hf.exists_resting_nil hidle
        exact ⟨j, hij, hidle j hij, hj⟩
      · obtain ⟨j, hj⟩ := Classical.not_forall.1 hidle
        obtain ⟨hij, hne⟩ := Classical.not_imp.1 hj
        obtain ⟨x, hjx, t, ht⟩ := hf.runs j hne
        have hless : (f (x + 1)).effort < e :=
          he ▸ Nat.lt_of_lt_of_le (ht.effort_lt (hclosing x)) (hle (Nat.le_trans hij hjx))
        obtain ⟨y, hxy, hnil⟩ := ih _ hless (x + 1) rfl
        exact ⟨y, by omega, hnil⟩
  obtain ⟨i, -, hline, hresting⟩ := hquiet 0
  have hend : (f i).underWay = [] := by rw [underWay, jobs, hline, hresting]; rfl
  obtain ⟨τ', hτ'⟩ := hrun i
  have hi : (f i).Returned := hτ'.disciplined.returned (hclosing i) hline hend
  refine ⟨i, fun j hij => ?_⟩
  induction hij with
  | refl => exact hi
  | @step j _ ih =>
    obtain ⟨ds, hs⟩ := hf.step j
    exact hs.returned ih

end

/-- The course in which the first in line runs and the clock moves on, in turn. -/
def course (c : Craft ω ρ) (p : Pool ω ρ L) : Nat → Pool ω ρ L
  | 0 => p
  | n + 1 =>
    let p := course c p n
    if n % 2 = 0 then (p.step? c).getD p else p.moveTo ⟨p.now.nanos + 1⟩

theorem course_even (c : Craft ω ρ) (p : Pool ω ρ L) (hn : n % 2 = 0) :
    (course c p n).line = [] ∧ course c p (n + 1) = course c p n ∨
      ∃ t, Performs c (course c p n) t (course c p (n + 1)) := by
  rw [show course c p (n + 1) = ((course c p n).step? c).getD (course c p n) from if_pos hn]
  unfold step?
  cases hline : (course c p n).line with
  | nil => exact .inl ⟨rfl, rfl⟩
  | cons t ts => exact .inr ⟨t, [], ts, hline, rfl⟩

theorem course_odd (c : Craft ω ρ) (p : Pool ω ρ L) (hn : n % 2 = 1) :
    course c p (n + 1) = (course c p n).moveTo ⟨(course c p n).now.nanos + 1⟩ :=
  if_neg (by omega)

/-- There is a fair course from every pool. -/
theorem fair_course (c : Craft ω ρ) (p : Pool ω ρ L) : Fair c (course c p) := by
  have hpar : ∀ n, n % 2 = 0 ∨ n % 2 = 1 := fun n => by omega
  refine ⟨fun n => ?_, fun n hn => ?_, fun t n => ?_⟩
  · rcases hpar n with hn | hn
    · rcases course_even c p hn with ⟨-, he⟩ | ⟨t, before, after, hline, he⟩
      · refine ⟨[], ?_⟩
        rw [he]
        exact .world (course c p n).world
      · exact ⟨_, .perform before after hline he⟩
    · exact ⟨[.tick], course_odd c p hn ▸ .pass (Nat.le_succ _)⟩
  · rcases hpar n with hpar | hpar
    · exact ⟨n, Nat.le_refl n, (course_even c p hpar).resolve_left fun h => hn h.1⟩
    · have hline : (course c p (n + 1)).line ≠ [] := by
        rw [course_odd c p hpar]
        obtain ⟨t, ht⟩ := List.exists_mem_of_ne_nil _ hn
        exact List.ne_nil_of_mem (mem_line_gather (List.mem_append_left _ ht))
      exact ⟨n + 1, Nat.le_succ n,
        (course_even c p (by omega)).resolve_left fun h => hline h.1⟩
  · have hnow : ∀ i, i ≤ (course c p (2 * i)).now.nanos := by
      intro i
      induction i with
      | zero => exact Nat.zero_le _
      | succ i ih =>
        have hstill : (course c p (2 * i + 1)).now = (course c p (2 * i)).now := by
          rcases course_even c p (n := 2 * i) (by omega) with ⟨-, he⟩ | ⟨t, before, after, -, he⟩
          · rw [he]
          · rw [he, perform_now]
        rw [show 2 * (i + 1) = 2 * i + 1 + 1 from rfl, course_odd c p (by omega), hstill]
        exact Nat.succ_le_succ ih
    exact ⟨2 * max n t.nanos, by omega, Nat.le_trans (by omega) (hnow (max n t.nanos))⟩

/-! ## Shutdown -/

/-- When the queue of a pool of workers is shut down, at any moment and whatever the work does:
whatever is done with the queue from then on, by anyone, no key waits, no key becomes dirty, no one
is asleep, who asks for a key gets none, and none is handed out. In every run from then on, who
still asks for a key stands in line to be told that there is none; each key that workers had is done
once, but for those they still have, with work on them under way or in line to be handed back; none
is done while work on it goes on; the workers have not ended while work goes on or a key is to be
handed back, and when no work goes on any more they end as soon as those in line have run. In every
fair course they end, and each key that they had is done. -/
theorem shutdown_drains (h : Run c (opening now name l w m) τ p) :
    (∀ π q, WorkQueue.Steps (p.onQueue (·.shutDown)).queue π q →
      q.waiting = .empty ∧ q.dirty = p.queue.dirty ∧ q.getters.asleep = [] ∧
      (∀ g, (q.ask g).1 = .closed) ∧ ∀ t g k, (t, .handOut g k) ∉ π) ∧
    (∀ σ p', Run c (p.onQueue (·.shutDown)) σ p' →
      WorkQueue.Steps (p.onQueue (·.shutDown)).queue σ p'.queue ∧
      (∀ g, p'.Asks g → ∃ before after, p'.line = before ++ .ask g :: after ∧
        (perform c { p' with line := before ++ after } (.ask g)).takers.get? g =
          some ⟨.worker, .ended false⟩) ∧
      (∀ k, WorkQueue.dones k σ + (if k ∈ p'.queue.processing then 1 else 0) =
        if k ∈ p.queue.processing then 1 else 0) ∧
      (∀ k ∈ p'.queue.processing, ∃ g, p'.worksOn? g = some k ∧
        ((g, k) ∈ p'.underWay ∨ ∃ o, .finish g o ∈ p'.line)) ∧
      (∀ ds p'', Step c p' ds p'' → ∀ k, .done k ∈ ds → ∀ g, (g, k) ∉ p'.underWay) ∧
      (p'.Returned → p'.jobs = [] ∧ p'.queue.processing = []) ∧
      (p'.underWay = [] → (settle c p'.line.length p').Returned)) ∧
    ∀ f, f 0 = p.onQueue (·.shutDown) → Fair c f →
      ∃ i σ, Run c (p.onQueue (·.shutDown)) σ (f i) ∧
        (∀ k ∈ p.queue.processing, WorkQueue.dones k σ = 1) ∧ ∀ j ≥ i, (f j).Returned := by
  have hstep : Step c p [.shutDown] (p.onQueue (·.shutDown)) := .notify rfl .shutDown
  have hclosed := h.next hstep
  have hshut : (p.onQueue (·.shutDown)).queue.Shut := WorkQueue.shut_shutDown p.queue
  have hkept : (p.onQueue (·.shutDown)).queue.dirty = p.queue.dirty ∧
      (p.onQueue (·.shutDown)).queue.processing = p.queue.processing :=
    ⟨WorkQueue.shutDown_dirty p.queue, WorkQueue.shutDown_processing p.queue⟩
  have hdones : ∀ {σ p'}, Run c (p.onQueue (·.shutDown)) σ p' → ∀ k,
      WorkQueue.dones k σ + (if k ∈ p'.queue.processing then 1 else 0) =
        if k ∈ p.queue.processing then 1 else 0 := fun hrun k => by
    rw [← hkept.2]
    exact hclosed.disciplined.run.dones_after hshut (hclosed.trans hrun).disciplined.run k
  refine ⟨fun π q hq => ?_, fun σ p' hrun => ?_, fun f hf hfair => ?_⟩
  · have hrests := hq.rests hshut
    exact ⟨hrests.shut.waiting, hrests.dirty.trans hkept.1, hrests.shut.asleep,
      fun g => congrArg Prod.fst (hrests.shut.ask_eq g), hq.not_handOut hshut⟩
  · have hd := (hclosed.trans hrun).disciplined
    have hclosing := hclosed.closing hrun hshut
    refine ⟨hclosed.steps_after hrun, fun g hg => ?_, hdones hrun, fun k hk => ?_,
      fun ds p'' hs k hk g => hd.not_underWay_of_done hs hk, fun hp => ?_,
      fun hend => returned_settle (hclosed.trans hrun) hclosing.shut hend⟩
    · exact hd.told hclosing hg
    · obtain ⟨g, hg⟩ := (hd.assigned.owned k).1 hk
      exact ⟨g, hg, hd.underWay_or_finish hg⟩
    · have hjobs := hd.jobs_of_returned hp
      exact ⟨hjobs, hd.jobs_eq_nil_iff.1 hjobs⟩
  · obtain ⟨i, hi⟩ := hfair.returned (hf ▸ hclosed) (hf ▸ hshut)
    obtain ⟨σ, hσ⟩ := hfair.run (Nat.zero_le i)
    rw [hf] at hσ
    have hd := (hclosed.trans hσ).disciplined
    have hnil := hd.jobs_eq_nil_iff.1 (hd.jobs_of_returned (hi i (Nat.le_refl i)))
    refine ⟨i, σ, hσ, fun k hk => ?_, hi⟩
    have hk := (hdones hσ k).trans (if_pos hk)
    rwa [hnil, if_neg List.not_mem_nil] at hk

end

/-- Work that rests for a millisecond and then breaks off. -/
def restless : Craft Unit Unit where
  start now _ w := (.resting ⟨now.nanos + 1_000_000⟩ (), w)
  resume _ _ _ w := (.crash, w)
  kept _ _ _ w := w

/-- Two workers, one of which works on a key while the other is asleep. The key is added again, and
another one waits for its instant, when the queue is shut down. The work ends and the key is done,
and no key is worked on after that. -/
theorem shutdown_drains_resting :
    let l := RateLimiter.exponential (.ofMillis 5) (.ofSeconds 1000)
    let p₀ : Pool Unit Unit := opening ⟨0⟩ "q" l () 2
    let p₁ := settle restless 3 ({ p₀ with queue := p₀.queue.add "ns/a" } : Pool Unit Unit).gather
    let p₂ := ({ p₁ with queue := p₁.queue.add "ns/a" } : Pool Unit Unit).gather
    let p := ({ p₂ with queue := (p₂.queue.addAfter "ns/b" p₂.now (.ofSeconds 1)).2 } :
      Pool Unit Unit).gather
    let p' := settle restless 4 ((p.onQueue (·.shutDown)).moveTo (.ofMillis 1))
    (∃ τ, Run restless p₀ τ p) ∧ p.queue.processing = ["ns/a"] ∧ p.queue.dirty = ["ns/a"] ∧
      p.queue.waiting.keys = ["ns/b"] ∧ p.queue.getters.asleep = [1] ∧
      (∃ σ, Run restless (p.onQueue (·.shutDown)) σ p' ∧ WorkQueue.dones "ns/a" σ = 1 ∧
        ∀ t g k, (t, .handOut g k) ∉ σ) ∧
      p'.queue.waiting = .empty ∧ p'.queue.dirty = ["ns/a"] ∧
      (settle restless p'.line.length p').Returned ∧
      ∃ i, ∀ j ≥ i, (course restless (p.onQueue (·.shutDown)) j).Returned := by
  intro l p₀ p₁ p₂ p p'
  have h₀ : Run restless p₀ [(⟨0⟩, .add "ns/a")]
      ({ p₀ with queue := p₀.queue.add "ns/a" } : Pool Unit Unit).gather :=
    .next .start (.notify rfl (.add "ns/a"))
  obtain ⟨τ₁, h₁⟩ := h₀.settle 3
  have h₂ : Run restless p₀ (τ₁ ++ [(p₂.now, .add "ns/a")]) p₂ :=
    h₁.next (.notify rfl (.add "ns/a"))
  have h : Run restless p₀
      (τ₁ ++ [(p₂.now, .add "ns/a")] ++ [(p.now, .addAfter "ns/b" (.ofSeconds 1))]) p :=
    h₂.next (.notify rfl (.addAfter "ns/b" (.ofSeconds 1)))
  obtain ⟨hqueue, hruns, hfair⟩ := shutdown_drains h
  have hpass : Run restless (p.onQueue (·.shutDown)) [(.ofMillis 1, .tick)]
      ((p.onQueue (·.shutDown)).moveTo (.ofMillis 1)) := .next .start (.pass (by decide +kernel))
  obtain ⟨σ, hσ⟩ := hpass.settle 4
  obtain ⟨hsteps, -, hdones, -, -, -, hend⟩ := hruns σ p' hσ
  obtain ⟨hwaiting, hdirty, -, -, hnone⟩ := hqueue σ p'.queue hsteps
  have hks : p.queue.processing = ["ns/a"] := by decide +kernel
  have hks' : p'.queue.processing = [] := by decide +kernel
  have hdirty' : p.queue.dirty = ["ns/a"] := by decide +kernel
  have hdone : p'.underWay = [] := by decide +kernel
  obtain ⟨i, -, -, -, hi⟩ := hfair (course restless _) rfl (fair_course restless _)
  refine ⟨⟨_, h⟩, hks, hdirty', by decide +kernel, by decide +kernel, ⟨σ, hσ, ?_, hnone⟩, hwaiting,
    hdirty.trans hdirty', hend hdone, i, hi⟩
  have hone := hdones "ns/a"
  rwa [hks, hks', if_neg List.not_mem_nil, if_pos (.head _)] at hone

end Pool

namespace Controller

/-- The controller sees by where its workers stand that they have ended. -/
theorem isIdle_iff_returned {χ : Type} {c : Controller χ}
    (h : ∀ g t, c.pool.takers.get? g = some t → g ∈ c.workers) :
    c.isIdle = true ↔ c.pool.Returned := by
  unfold isIdle
  rw [List.all_eq_true]
  refine ⟨fun hidle g => ?_, fun hp g _ => ?_⟩
  · cases ht : c.pool.takers.get? g with
    | none => simp [Pool.Asks, Pool.worksOn?, ht]
    | some t =>
      have hg := hidle g (h g t ht)
      obtain ⟨r, s⟩ := t
      cases s <;> simp_all [Pool.Asks, Pool.worksOn?]
  · have hg := hp g
    cases ht : c.pool.takers.get? g with
    | none => rfl
    | some t =>
      obtain ⟨r, s⟩ := t
      cases s <;> simp_all [Pool.Asks, Pool.worksOn?]

end Controller

end Prewarm
