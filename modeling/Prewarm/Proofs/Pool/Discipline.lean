import Prewarm.Proofs.Pool.Assigned
import Prewarm.Proofs.WorkQueue.Exclusive
import Prewarm.Proofs.WorkQueue.Pending

/-!
# Discipline of a pool of workers

Whatever work on keys does and however it ends, the workers of a pool share the keys of its queue:
each key that was handed out and not said to be done is with one worker, who has one job because of
it (`Assigned`). Every worker stands where it may stand (`Staffed`), and what is done with the queue
is a run of the queue, so all that holds of runs of queues holds of the queue of a pool. Each task
keeps this (`Disciplined.perform`), and so does all else that happens (`Step.disciplined`).

A worker ends before the queue shuts down only if the clock cannot show the end of a delay
(`worker_lost_beyond_clock`).
-/

namespace Prewarm

/-! ## Handing back as deeds -/

namespace WorkQueue

section
variable {L : Type} [Limiter L] {q q₀ : WorkQueue L} {now : Instant} {k x : Key} {o : Outcome}
  {τ : History}

/-- A key that is handed back is with no worker any more, and nothing else has changed hands. -/
@[simp] theorem mem_processing_handBack :
    x ∈ (q.handBack k o now).2.processing ↔ x ∈ q.processing ∧ x ≠ k := by
  unfold handBack
  split
  · rw [Step.mem_processing (.addRateLimited k), mem_processing_done]
    simp
  · exact mem_processing_done (q := q.forget k)

/-- A key that is handed back does not matter to whether the queue shuts down. -/
@[simp] theorem handBack_shuttingDown : (q.handBack k o now).2.shuttingDown = q.shuttingDown := by
  unfold handBack
  split
  · rw [Step.shuttingDown_eq (.addRateLimited k) (by simp), done_shuttingDown]
  · exact done_shuttingDown (q.forget k) k

/-- A worker hands a key back by deeds that a run of the queue allows it. -/
theorem Run.handBack (h : Run q₀ τ q) (hk : k ∈ held τ) :
    Run q₀ (τ ++ (Pool.handBackDeeds k o).map fun d => (now, d)) (q.handBack k o now).2 := by
  unfold WorkQueue.handBack Pool.handBackDeeds
  split
  · have hdone : Run q₀ (τ ++ [(now, .done k)]) (q.done k) :=
      h.next (fun x e => by cases e; exact hk) (.done k)
    have hadd : Run q₀ (τ ++ [(now, .done k)] ++ [(now, .addRateLimited k)])
        ((q.done k).addRateLimited k now).2 := hdone.next (by simp) (.addRateLimited k)
    rwa [List.append_assoc] at hadd
  · have hforget : Run q₀ (τ ++ [(now, .forget k)]) (q.forget k) := h.next (by simp) (.forget k)
    have hdone : Run q₀ (τ ++ [(now, .forget k)] ++ [(now, .done k)]) ((q.forget k).done k) :=
      hforget.next (fun x e => by cases e; rwa [held_concat]) (.done k)
    rwa [List.append_assoc] at hdone

end

end WorkQueue

namespace Pool

section
variable {ω ρ L : Type} [Limiter L] {c : Craft ω ρ} {l : L} {name : String} {n : Nat}
  {p p' : Pool ω ρ L} {g : GetterId} {k : Key} {s : Stand} {o : Outcome} {τ : WorkQueue.History}
  {js : List Job} {ds : List WorkQueue.Deed}

/-! ## Where workers stand -/

/-- Where a worker may stand. It ends when the queue shuts down, and breaks off only if the clock
cannot show the end of a delay or the limiter has none. -/
def Fits (l : L) (p : Pool ω ρ L) : Stand → Prop
  | .asking | .working _ => True
  | .ended _ => p.queue.shuttingDown = true
  | .crashed => ¬ (Limiter.NeverFails l ∧ Limiter.ShownUntil p.now l)

/-- Where a worker may stand, it may stand later on. -/
theorem Fits.mono (h : Fits l p s)
    (hq : p.queue.shuttingDown = true → p'.queue.shuttingDown = true)
    (hnow : p.now.nanos ≤ p'.now.nanos) : Fits l p' s := by
  cases s with
  | asking | working => trivial
  | ended => exact hq h
  | crashed => exact fun hl => h ⟨hl.1, hl.2.mono hnow⟩

/-- The takers are so many workers, all of which stand where they may. -/
structure Staffed (l : L) (n : Nat) (p : Pool ω ρ L) : Prop where
  worker : ∀ g < n, ∃ s, p.takers.get? g = some ⟨.worker, s⟩ ∧ Fits l p s
  lt : ∀ g t, p.takers.get? g = some t → g < n

/-- All who take keys are workers. -/
theorem Staffed.role (h : Staffed l n p) {t : Taker} (hg : p.takers.get? g = some t) :
    t.role = .worker := by
  obtain ⟨s, hs, -⟩ := h.worker g (h.lt g t hg)
  cases hs.symm.trans hg
  rfl

/-- A pool keeps its workers as long as those who take keys stand where they did. -/
theorem Staffed.congr (h : Staffed l n p) (ht : p'.takers = p.takers)
    (hq : p.queue.shuttingDown = true → p'.queue.shuttingDown = true)
    (hnow : p.now.nanos ≤ p'.now.nanos) : Staffed l n p' := by
  refine ⟨fun g hg => ?_, fun g t hg => h.lt g t (ht ▸ hg)⟩
  obtain ⟨s, hs, hf⟩ := h.worker g hg
  exact ⟨s, ht ▸ hs, hf.mono hq hnow⟩

/-- A worker goes on to another stand. -/
theorem Staffed.place (h : Staffed l n p) (hg : g < n)
    (ht : p'.takers = p.takers.insert g ⟨.worker, s⟩)
    (hq : p.queue.shuttingDown = true → p'.queue.shuttingDown = true)
    (hnow : p'.now = p.now) (hs : Fits l p' s) : Staffed l n p' := by
  refine ⟨fun x hx => ?_, fun x t hx => ?_⟩ <;> simp only [ht, Table.get?_insert] at *
  · by_cases hxg : x = g
    · exact ⟨s, if_pos hxg, hs⟩
    · obtain ⟨s', hs', hf⟩ := h.worker x hx
      exact ⟨s', (if_neg hxg).trans hs', hf.mono hq (hnow ▸ Nat.le_refl _)⟩
  · split at hx
    · next hxg => exact hxg ▸ hg
    · exact h.lt x t hx

/-! ## Tasks -/

/-- What holds of a pool of `n` workers after each thing that happens to it, by what was done with
its queue and by the jobs that there are. -/
structure Disciplined (name : String) (l : L) (n : Nat) (τ : WorkQueue.History) (js : List Job)
    (p : Pool ω ρ L) : Prop where
  run : WorkQueue.Run (.withLimiter name l) τ p.queue
  staffed : Staffed l n p
  assigned : Assigned p.queue.processing p.worksOn? js

/-- The queue of a disciplined pool has each key in one place, with one worker or none. -/
theorem Disciplined.invariant (h : Disciplined name l n τ js p) :
    WorkQueue.Exclusive p.queue ∧ WorkQueue.Ledger τ p.queue :=
  h.run.invariant (WorkQueue.exclusive_withLimiter name l) ⟨.nil, fun _ => .rfl⟩

/-- A key that a worker has is one that is handed out. -/
theorem Disciplined.mem_held (h : Disciplined name l n τ js p) (hg : p.worksOn? g = some k) :
    k ∈ WorkQueue.held τ :=
  (h.invariant.2.mem k).2 ((h.assigned.owned k).2 ⟨g, hg⟩)

/-- A step that touches neither the queue nor those who take keys. -/
theorem Disciplined.congr {js' : List Job} (h : Disciplined name l n τ js p)
    (hnow : p'.now = p.now) (hq : p'.queue = p.queue) (ht : p'.takers = p.takers)
    (hjs : js'.Perm js) : Disciplined name l n τ js' p' := by
  refine ⟨hq ▸ h.run, h.staffed.congr ht (fun hs => hq ▸ hs) (hnow ▸ Nat.le_refl _), ?_⟩
  refine (h.assigned.perm hjs).congr (fun x => ?_) fun x => ?_
  · rw [hq]
  · rw [worksOn?, ht, worksOn?]

/-- When work has ended, what is left of the job is to hand the key back. -/
theorem Disciplined.ended {key : Option Key} (h : Disciplined name l n τ (⟨g, key⟩ :: js) p) :
    Disciplined name l n τ (⟨g, none⟩ :: js) p :=
  ⟨h.run, h.staffed, h.assigned.ended⟩

/-- A deed by which no key changes hands. -/
theorem Disciplined.deed {js' : List Job} {d : WorkQueue.Deed} {now : Instant}
    (h : Disciplined name l n τ js p) (hs : WorkQueue.Step now p.queue d p'.queue)
    (hhand : ∀ g k, d ≠ .handOut g k) (hdone : ∀ k, d ≠ .done k) (hstaffed : Staffed l n p')
    (hhas : ∀ x, p'.worksOn? x = p.worksOn? x) (hjs : js'.Perm js) :
    Disciplined name l n (τ ++ [(now, d)]) js' p' := by
  refine ⟨h.run.next (fun k hk => absurd hk (hdone k)) hs, hstaffed, ?_⟩
  refine (h.assigned.perm hjs).congr (fun x => ?_) hhas
  rw [hs.mem_processing]
  simp [hhand, hdone]

/-- Such a deed of others than those who take keys. -/
theorem Disciplined.deedOfOthers {js' : List Job} {d : WorkQueue.Deed} {now : Instant}
    (h : Disciplined name l n τ js p) (hs : WorkQueue.Step now p.queue d p'.queue)
    (hhand : ∀ g k, d ≠ .handOut g k) (hdone : ∀ k, d ≠ .done k)
    (hnow : p.now.nanos ≤ p'.now.nanos) (ht : p'.takers = p.takers) (hjs : js'.Perm js) :
    Disciplined name l n (τ ++ [(now, d)]) js' p' := by
  refine h.deed hs hhand hdone (h.staffed.congr ht hs.shuttingDown_mono hnow) (fun x => ?_) hjs
  rw [worksOn?, ht, worksOn?]

/-- A pool stays disciplined when a worker asks for a key, whatever it is told. -/
theorem Disciplined.askFor (h : Disciplined name l n τ p.jobs p)
    (hg : p.takers.get? g = some ⟨.worker, .asking⟩) :
    Disciplined name l n
      (τ ++ ((askFor c p g .worker).askDeeds g).map fun d => (p.now, d))
      (askFor c p g .worker).jobs (askFor c p g .worker) := by
  have hlt := h.staffed.lt g _ hg
  have hfree : p.worksOn? g = none := by simp [worksOn?, hg]
  have hnow := askFor_now c p g .worker
  obtain ⟨-, hq, htakers⟩ := askFor_cases (r := .worker) c p g (by decide)
  have hmono : p.queue.shuttingDown = true →
      (Pool.askFor c p g .worker).queue.shuttingDown = true :=
    fun hs => by rw [hq, WorkQueue.ask_shuttingDown, hs]
  rcases jobs_askFor c p g with ⟨k, hk, hjobs⟩ | ⟨hno, hjobs⟩
  · -- the key of the hand-out was with no worker, and is with this one now
    obtain ⟨k', hk', ht⟩ := htakers.resolve_right fun hno => hno.1 k hk
    cases hk.symm.trans hk'
    have hs : WorkQueue.Step p.now p.queue (.handOut g k) (Pool.askFor c p g .worker).queue :=
      .handOut (Prod.ext hk hq.symm)
    have hdeeds : (Pool.askFor c p g .worker).askDeeds g = [.handOut g k] := by
      simp [askDeeds, ht]
    rw [hdeeds]
    refine ⟨h.run.next (by simp) hs, h.staffed.place hlt ht hmono hnow trivial, ?_⟩
    refine (h.assigned.take hfree (hs.not_processing h.invariant.1) (fun x => ?_)
      (worksOn?_insert ht)).perm hjobs
    rw [hs.mem_processing]
    simp [eq_comm]
  · have hs : WorkQueue.Step p.now p.queue (.turnAway g) (Pool.askFor c p g .worker).queue :=
      .turnAway (Prod.ext rfl hq.symm) hno
    obtain ⟨-, ht⟩ := htakers.resolve_left fun h => h.elim fun k hk => hno k hk.1
    have hdeeds : (Pool.askFor c p g .worker).askDeeds g = [.turnAway g] := by
      rcases ht with ht | ⟨-, ht⟩
      · simp [askDeeds, ht, hg]
      · simp [askDeeds, ht]
    have hstaffed : Staffed l n (Pool.askFor c p g .worker) := by
      rcases ht with ht | ⟨hshut, ht⟩
      · exact h.staffed.congr ht hmono (hnow ▸ Nat.le_refl _)
      · exact h.staffed.place hlt ht hmono hnow (hmono hshut)
    have hhas := worksOn?_askFor_of_no_key (c := c) (r := .worker) (by decide) hfree hno
    rw [hdeeds]
    exact h.deed hs (by simp) (by simp) hstaffed hhas (.of_eq hjobs)

/-- A worker whose work has ended gives its key back, however the work ended. -/
theorem Disciplined.handBack {key : Option Key} (h : Disciplined name l n τ (⟨g, key⟩ :: js) p)
    (hg : p.worksOn? g = some k) (hnow : p'.now = p.now)
    (hq : p'.queue = (p.queue.handBack k o p.now).2)
    (ht : p'.takers = p.takers.insert g ⟨.worker, s⟩) (hs : ∀ k, s ≠ .working k)
    (hf : Fits l p' s) :
    Disciplined name l n (τ ++ (handBackDeeds k o).map fun d => (p.now, d)) js p' := by
  obtain ⟨r, hr⟩ := exists_taker hg
  refine ⟨hq ▸ h.run.handBack (h.mem_held hg), ?_, ?_⟩
  · refine h.staffed.place (h.staffed.lt g _ hr) ht (fun hshut => ?_) hnow hf
    rw [hq, WorkQueue.handBack_shuttingDown, hshut]
  · refine h.assigned.release hg (fun x => ?_) fun x => ?_
    · rw [hq, WorkQueue.mem_processing_handBack]
    · rw [worksOn?_insert ht]
      cases s with
      | working k => exact absurd rfl (hs k)
      | asking | ended | crashed => rfl

/-- A pool stays disciplined when work has ended, with whatever outcome, and its worker goes on. -/
theorem Disciplined.finish {key : Option Key} (h : Disciplined name l n τ (⟨g, key⟩ :: p.jobs) p) :
    Disciplined name l n
      (τ ++ (p.queueDeeds (finish c p g o) (.finish g o)).map fun d => (p.now, d))
      (finish c p g o).jobs (finish c p g o) := by
  obtain ⟨k, hk, -⟩ := h.assigned.fits _ (.head _)
  obtain ⟨r, hg⟩ := exists_taker hk
  cases h.staffed.role hg
  obtain ⟨p₁, hnow, hq, hjobs, ⟨-, ht, hf⟩ | ⟨⟨e, he⟩, ht, hf⟩⟩ := finish_worker c o hg <;> rw [hf]
  · have hback := h.handBack (o := o) hk hnow hq ht (by simp) trivial
    have hask : p₁.takers.get? g = some ⟨.worker, .asking⟩ := by
      rw [ht, Table.get?_insert_self]
    rw [← hjobs] at hback
    have hnext := hback.askFor (c := c) hask
    rw [hnow, List.append_assoc, ← List.map_append] at hnext
    simp only [queueDeeds, hk]
    exact hnext
  · have hlost : ¬ (Limiter.NeverFails l ∧ Limiter.ShownUntil p₁.now l) := by
      rintro ⟨hl, hshown⟩
      rw [hnow] at hshown
      rw [WorkQueue.handBack_ok hl hshown h.run.becomes k o] at he
      cases he
    have hback := h.handBack (o := o) hk hnow hq ht (by simp) hlost
    have hdeeds : p₁.askDeeds g = [] := by simp [askDeeds, ht]
    simp only [queueDeeds, hk, hdeeds, List.append_nil]
    exact hjobs ▸ hback

/-- Every task keeps a pool disciplined, whatever its place in the line was. -/
theorem Disciplined.perform {t : Task ρ}
    (h : Disciplined name l n τ (t.job?.toList ++ p.jobs) p) :
    Disciplined name l n
      (τ ++ (p.queueDeeds (perform c p t) t).map fun d => (p.now, d))
      (perform c p t).jobs (perform c p t) := by
  cases t with
  | ask g =>
    rcases perform_ask_cases c p g with ⟨r, hg, hp⟩ | ⟨hno, hp⟩ <;> rw [hp]
    · cases h.staffed.role hg
      simp only [queueDeeds, hg, Option.map_some]
      exact Disciplined.askFor h hg
    · have hdeeds : p.queueDeeds p (.ask g : Task ρ) = [] := by
        unfold queueDeeds
        dsimp only
        split
        · next hs =>
          obtain ⟨⟨r, s⟩, hg, hs⟩ := Option.map_eq_some_iff.1 hs
          cases hs
          exact absurd hg (hno r)
        · rfl
      rw [hdeeds, List.map_nil, List.append_nil]
      exact h
  | start g k =>
    simp only [queueDeeds, List.map_nil, List.append_nil]
    unfold Pool.perform
    dsimp only
    split
    · next o w _ => exact h.ended.congr rfl rfl rfl (jobs_concat p (.finish g o))
    · next wake rest w _ => exact h.congr rfl rfl rfl (jobs_rest p ⟨wake, g, k, rest⟩)
  | resume g k rest =>
    simp only [queueDeeds, List.map_nil, List.append_nil]
    exact h.ended.congr rfl rfl rfl (jobs_concat p (.finish g _))
  | finish g o => exact Disciplined.finish h
  | timer =>
    exact h.deedOfOthers .fire (by simp) (by simp) (Nat.le_refl _) rfl (.of_eq (jobs_gather _))

/-- Whatever happens to a pool, it stays disciplined. -/
theorem Step.disciplined (h : Disciplined name l n τ p.jobs p) (hs : Step c p ds p') :
    Disciplined name l n (τ ++ ds.map fun d => (p'.now, d)) p'.jobs p' := by
  cases hs with
  | @notify d q hd hq =>
    refine h.deedOfOthers hq (fun g k hk => ?_) (fun k hk => ?_) (Nat.le_refl _) rfl
      (.of_eq (jobs_gather _))
    · rw [hk] at hd
      cases hd
    · rw [hk] at hd
      cases hd
  | @perform t before after p' hline hp =>
    have hjobs := jobs_insert p before after t
    rw [← hline] at hjobs
    have hq : Disciplined name l n τ _ { p with line := before ++ after } :=
      h.congr rfl rfl rfl hjobs.symm
    subst hp
    rw [perform_now]
    exact hq.perform
  | pass hnow => exact h.deedOfOthers .tick (by simp) (by simp) hnow rfl (jobs_moveTo p _)
  | world w =>
    rw [List.map_nil, List.append_nil]
    exact h.congr rfl rfl rfl (.refl _)

/-! ## Runs -/

/-- A pool that begins is disciplined: it has its workers, and none of them has a key. -/
theorem disciplined_opening (now : Instant) (name : String) (l : L) (w : ω) (n : Nat) :
    Disciplined name l (max n 1) []
      (opening now name l w n : Pool ω ρ L).jobs (opening now name l w n : Pool ω ρ L) := by
  obtain ⟨hnow, hq, hjobs, ht⟩ := joinWorkers_spec
    ({ now := now, queue := .withLimiter name l, world := w } : Pool ω ρ L) rfl (max n 1)
  simp only [Nat.zero_add, Nat.zero_le, true_and] at ht
  have hfree : ∀ g, (opening now name l w n : Pool ω ρ L).worksOn? g = none := by
    intro g
    have hg := ht g
    unfold opening worksOn?
    rw [hg]
    split <;> rfl
  refine ⟨?_, ⟨fun g hg => ⟨.asking, (ht g).trans (if_pos hg), trivial⟩, fun g t hg => ?_⟩, ?_⟩
  · unfold opening
    rw [hq]
    exact .start
  · refine Classical.byContradiction fun hlt => ?_
    have hnone := (ht g).trans (if_neg hlt)
    cases hg.symm.trans hnone
  · have hjobs : (opening now name l w n : Pool ω ρ L).jobs = [] := hjobs
    have hks : (opening now name l w n : Pool ω ρ L).queue.processing = [] := by
      unfold opening
      rw [hq]
      rfl
    rw [hjobs, hks]
    exact assigned_nil.congr (fun _ => .rfl) hfree

/-- In every run a pool stays disciplined, with as many workers as it began with. -/
theorem Run.disciplined {now : Instant} {w : ω} {m : Nat}
    (h : Run c (opening now name l w m) τ p) : Disciplined name l (max m 1) τ p.jobs p := by
  induction h with
  | start => exact disciplined_opening now name l w m
  | next _ hs ih => exact hs.disciplined ih

/-- In every run of a pool of workers, with any work and any outcomes: what is done with the queue
is a run of the queue; no two workers work on one key at a time, and no more work goes on than there
are workers; one who works on a key has it until the key is handed back, and these keys are those
that the queue takes to be with workers, so each key was done once for each time that it was handed
out, but for the time that lasts; and a worker ends only when the queue shuts down, if the clock can
show the ends of delays. -/
theorem pool_disciplined {now : Instant} {w : ω} {m : Nat}
    (h : Run c (opening now name l w m) τ p) :
    WorkQueue.Run (.withLimiter name l) τ p.queue ∧
    (p.underWay.map Prod.snd).Nodup ∧
    p.underWay.length ≤ max m 1 ∧
    (∀ g k, (g, k) ∈ p.underWay → p.worksOn? g = some k) ∧
    (∀ g k, p.worksOn? g = some k → (g, k) ∈ p.underWay ∨ ∃ o, .finish g o ∈ p.line) ∧
    (∀ k, k ∈ p.queue.processing ↔ ∃ g < max m 1, p.worksOn? g = some k) ∧
    (∀ g g' k, p.worksOn? g = some k → p.worksOn? g' = some k → g = g') ∧
    (∀ k, WorkQueue.handOuts k τ =
      WorkQueue.dones k τ + if k ∈ p.queue.processing then 1 else 0) ∧
    (Limiter.NeverFails l → Limiter.ShownUntil p.now l → ∀ g < max m 1, ∃ s,
      p.takers.get? g = some ⟨.worker, s⟩ ∧
      (s = .asking ∨ (∃ k, s = .working k) ∨
        (∃ gotKey, s = .ended gotKey) ∧ p.queue.shuttingDown = true)) := by
  have hd := h.disciplined
  have hlt : ∀ g k, p.worksOn? g = some k → g < max m 1 := fun g k hg => by
    obtain ⟨r, hr⟩ := exists_taker hg
    exact hd.staffed.lt g _ hr
  have hkeys : p.underWay.map Prod.snd = p.jobs.filterMap Job.key := by
    simp [underWay, List.map_filterMap, Function.comp_def]
  refine ⟨hd.run, hkeys ▸ hd.assigned.nodup_keys, ?_, fun g k hg => ?_, fun g k hg => ?_,
    fun k => ?_, hd.assigned.alone, fun k => ?_, fun hl hshown g hg => ?_⟩
  · exact Nat.le_trans (List.length_filterMap_le _ _) (hd.assigned.length_le hlt)
  · obtain ⟨x, hx, hjx⟩ := hd.assigned.fits _ (mem_underWay.1 hg)
    rw [hjx k rfl, hx]
  · obtain ⟨⟨g, key⟩, hj, rfl⟩ := hd.assigned.covers g k hg
    cases key with
    | none => exact .inr (mem_jobs_none.1 hj)
    | some x =>
      obtain ⟨y, hy, hjy⟩ := hd.assigned.fits _ hj
      cases hjy x rfl
      cases hg.symm.trans hy
      exact .inl (mem_underWay.2 hj)
  · rw [hd.assigned.owned]
    exact exists_congr fun g => ⟨fun hg => ⟨hlt g k hg, hg⟩, And.right⟩
  · obtain ⟨-, hledger⟩ := hd.invariant
    rw [hd.run.handOuts_eq k, hledger.nodup.count]
    simp only [hledger.mem]
  · obtain ⟨s, hs, hf⟩ := hd.staffed.worker g hg
    refine ⟨s, hs, ?_⟩
    cases s with
    | asking => exact .inl rfl
    | working k => exact .inr (.inl ⟨k, rfl⟩)
    | ended b => exact .inr (.inr ⟨⟨b, rfl⟩, hf⟩)
    | crashed => exact absurd ⟨hl, hshown⟩ hf

end

/-- Work that breaks off when it begins and succeeds when it goes on. -/
def flaky : Craft Unit Unit where
  start _ _ w := (.ended .crash, w)
  resume _ _ _ w := (.success, w)
  kept _ _ _ w := w

/-- One worker, whose work on the first of two keys breaks off. It hands the key back and works on
the other. -/
theorem pool_disciplined_crashed :
    let l := RateLimiter.exponential (.ofMillis 5) (.ofSeconds 1000)
    let p₀ : Pool Unit Unit := opening ⟨0⟩ "q" l () 1
    let p₁ := ({ p₀ with queue := p₀.queue.add "ns/a" } : Pool Unit Unit).gather
    let p₂ := ({ p₁ with queue := p₁.queue.add "ns/b" } : Pool Unit Unit).gather
    let p := settle flaky 3 p₂
    ∃ τ, Run flaky p₀ τ p ∧ p.worksOn? 0 = some "ns/b" ∧ p.queue.processing = ["ns/b"] ∧
      (p.underWay.map Prod.snd).Nodup ∧
      WorkQueue.handOuts "ns/a" τ = WorkQueue.dones "ns/a" τ + 0 ∧
      ∃ s, p.takers.get? 0 = some ⟨.worker, s⟩ ∧ s ≠ .crashed := by
  intro l p₀ p₁ p₂ p
  have h₁ : Run flaky p₀ [(⟨0⟩, .add "ns/a")] p₁ := .next .start (.notify rfl (.add "ns/a"))
  have h₂ : Run flaky p₀ [(⟨0⟩, .add "ns/a"), (⟨0⟩, .add "ns/b")] p₂ :=
    .next h₁ (.notify rfl (.add "ns/b"))
  obtain ⟨τ, h⟩ := h₂.settle 3
  have hworks : p.worksOn? 0 = some "ns/b" := by decide +kernel
  have hks : p.queue.processing = ["ns/b"] := by decide +kernel
  have hnow : p.now = ⟨0⟩ := by decide +kernel
  have hshown : Limiter.ShownUntil p.now l := by
    rw [hnow]
    exact RateLimiter.shownUntil_exponential (by decide)
  obtain ⟨-, hnodup, -, -, -, -, -, hdone, hstands⟩ := pool_disciplined h
  refine ⟨τ, h, hworks, hks, hnodup, ?_, ?_⟩
  · rw [hdone "ns/a", if_neg (by rw [hks]; decide)]
  · obtain ⟨s, hs, hstand⟩ := hstands (RateLimiter.neverFails_exponential _ _) hshown 0 (by decide)
    refine ⟨s, hs, ?_⟩
    rcases hstand with rfl | ⟨k, rfl⟩ | ⟨⟨b, rfl⟩, -⟩ <;> simp

/-- A limiter never fails, but the clock cannot show the end of its delay. The one worker breaks off
when it hands a key back, although the queue does not shut down. -/
theorem worker_lost_beyond_clock :
    let l := RateLimiter.exponential (.ofSeconds (Nat.pow 2 64 - 1)) (.ofSeconds (Nat.pow 2 63))
    let p₀ : Pool Unit Unit := opening ⟨0⟩ "q" l () 1
    let p₁ := ({ p₀ with queue := p₀.queue.add "ns/a" } : Pool Unit Unit).gather
    let p := settle flaky 3 p₁
    Limiter.NeverFails l ∧ (∃ τ, Run flaky p₀ τ p) ∧ p.queue.shuttingDown = false ∧
      ¬ ∀ g < max 1 1, ∃ s, p.takers.get? g = some ⟨.worker, s⟩ ∧
        (s = .asking ∨ ∃ k, s = .working k) := by
  intro l p₀ p₁ p
  have h₁ : Run flaky p₀ [(⟨0⟩, .add "ns/a")] p₁ := .next .start (.notify rfl (.add "ns/a"))
  have hg : p.takers.get? 0 = some ⟨.worker, .crashed⟩ := by decide +kernel
  refine ⟨RateLimiter.neverFails_exponential _ _, h₁.settle 3, by decide +kernel, fun hall => ?_⟩
  obtain ⟨s, hs, hstand⟩ := hall 0 (by decide)
  cases hg.symm.trans hs
  rcases hstand with hstand | ⟨k, hstand⟩ <;> cases hstand

end Pool

end Prewarm
