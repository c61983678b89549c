import Prewarm.Proofs.Controller.Run

/-!
# No work before the stores hold a whole listing

As long as the controller waits for its stores it has no workers, and nobody is asked for anything
(`Unmanned`). What it can do then is said once (`Step.cases_of_unmanned`): it goes on to wait
(`Idle`), it gets workers because it sees that both stores have held a whole listing, or it gives
up. So both reflectors have taken a listing over when it gets workers (`Gate`), and it never gets
any once it has given up (`Ended`).

When the wait is due to end, because its time is up or the controller was told to stop, its next
turn decides. Nothing says which of the things that can happen then is the first, so that both
listings may still be taken over before that turn (`work_after_stop`).
-/

namespace Prewarm

namespace Pool

variable {ω ρ L : Type} [Limiter L] {c : Craft ω ρ} {p : Pool ω ρ L} {t : Task ρ}
  {before after : List (Task ρ)}

/-- Without takers and work, what runs changes nothing but the queue and the line. -/
theorem perform_idle (htakers : ∀ g, p.takers.get? g = none) (hjobs : p.jobs = [])
    (hline : p.line = before ++ t :: after) :
    let p' := perform c { p with line := before ++ after } t
    p'.takers = p.takers ∧ p'.world = p.world ∧ p'.jobs = [] ∧
      (p.queue.shuttingDown = true → p'.queue.shuttingDown = true) := by
  have hinsert := jobs_insert p before after t
  rw [← hline] at hinsert
  obtain ⟨hjob, hrest⟩ := List.append_eq_nil_iff.1 (hinsert.symm.trans (.of_eq hjobs)).eq_nil
  cases t with
  | ask g =>
    obtain ⟨r, hg, -⟩ | ⟨-, hself⟩ := perform_ask_cases c { p with line := before ++ after } g
    · nomatch (htakers g).symm.trans hg
    · rw [hself]
      exact ⟨rfl, rfl, hrest, id⟩
  | timer =>
    have hfire : ({ p with line := before ++ after } : Pool ω ρ L).queue.runTimer p.now =
      p.queue.runTimer p.now := rfl
    refine ⟨rfl, rfl, (jobs_gather _).trans hrest, fun hs => ?_⟩
    exact (WorkQueue.adds_runTimer p.queue p.now).shuttingDown.trans hs
  | start | resume | finish => cases hjob

omit [Limiter L] in
/-- Workers who join do not change the world. -/
@[simp] theorem joinWorkers_world (p : Pool ω ρ L) (n : Nat) :
    (p.joinWorkers n).world = p.world := by
  induction n generalizing p with
  | zero => rfl
  | succ n ih => exact ih (p.join .worker).2

end Pool

namespace Controller

section
variable {χ : Type} {h : Host χ} {c c' : Controller (χ × List Issue)} {e : Event}
  {τ ρ σ : History χ} {w : CacheSync} {y : End}

/-- The controller has no workers, and nobody was asked for anything. -/
structure Unmanned (c : Controller (χ × List Issue)) : Prop where
  takers : ∀ g, c.pool.takers.get? g = none
  jobs : c.pool.jobs = []
  issued : c.issued = []

/-! ## Reflectors -/

/-- The reflector of warm images has taken a whole listing over. -/
def TookWarmImages (τ : History χ) : Prop :=
  ∃ c i, (c, .warmImages i) ∈ τ ∧ c.Takes parentRule c.pool.world.warmImages i

/-- The reflector of daemon sets has taken a whole listing over. -/
def TookDaemonSets (τ : History χ) : Prop :=
  ∃ c i, (c, .daemonSets i) ∈ τ ∧ c.Takes childRule c.pool.world.daemonSets i

/-- What the reflectors do is not the work of the controller, and does not end its wait. -/
structure Fed (c c' : Controller (χ × List Issue)) : Prop where
  stage : c'.stage = c.stage
  takers : c'.pool.takers = c.pool.takers
  jobs : c'.pool.jobs = c.pool.jobs
  issued : c'.issued = c.issued
  shuttingDown : c'.pool.queue.shuttingDown = c.pool.queue.shuttingDown
  now : c'.pool.now = c.pool.now
  cancelled : c'.cancelled = c.cancelled

/-- Whatever happens to a reflector, and wherever the world notes it, only the world and the keys on
the queue change. -/
theorem fed_feed {α : Type} [Resource α] (c : Controller (χ × List Issue)) (rule : EnqueueRule)
    (r : Reflector α) (put : Reflector α → Surroundings (χ × List Issue) → Surroundings _)
    (hput : ∀ a b w, put a (put b w) = put a w) (hhost : ∀ a w, (put a w).host = w.host)
    (i : Reflector.Input α) : Fed c (c.feed rule r put i) := by
  obtain ⟨q, r', heq, hq, -⟩ := feed_spec c rule r put hput i
  rw [heq]
  exact ⟨rfl, rfl, Pool.jobs_gather { c.pool with queue := q }, congrArg Prod.snd (hhost _ _), hq,
    rfl, rfl⟩

/-- What happens to the reflector of warm images does no work of the controller. -/
theorem fed_warmImages (c : Controller (χ × List Issue)) (i : Reflector.Input WarmImage) :
    Fed c (c.feedWarmImages i) :=
  fed_feed c parentRule c.pool.world.warmImages (fun r w => { w with warmImages := r })
    (fun _ _ _ => rfl) (fun _ _ => rfl) i

/-- What happens to the reflector of daemon sets does no work of the controller. -/
theorem fed_daemonSets (c : Controller (χ × List Issue)) (i : Reflector.Input DaemonSet) :
    Fed c (c.feedDaemonSets i) :=
  fed_feed c childRule c.pool.world.daemonSets (fun r w => { w with daemonSets := r })
    (fun _ _ _ => rfl) (fun _ _ => rfl) i

/-- The store of warm images holds a whole listing only if it did before or one is taken over, and
that of daemon sets is not touched. -/
theorem stores_warmImages (c : Controller (χ × List Issue)) (i : Reflector.Input WarmImage) :
    ((c.feedWarmImages i).pool.world.warmImages.store.synced = true →
      c.pool.world.warmImages.store.synced = true ∨
        c.Takes parentRule c.pool.world.warmImages i) ∧
    (c.feedWarmImages i).pool.world.daemonSets = c.pool.world.daemonSets := by
  obtain ⟨q, r', heq, -, hsynced, -⟩ := feed_spec c parentRule c.pool.world.warmImages
    (fun r w => { w with warmImages := r }) (fun _ _ _ => rfl) i
  unfold feedWarmImages
  rw [heq]
  exact ⟨hsynced, rfl⟩

/-- The store of daemon sets holds a whole listing only if it did before or one is taken over, and
that of warm images is not touched. -/
theorem stores_daemonSets (c : Controller (χ × List Issue)) (i : Reflector.Input DaemonSet) :
    ((c.feedDaemonSets i).pool.world.daemonSets.store.synced = true →
      c.pool.world.daemonSets.store.synced = true ∨
        c.Takes childRule c.pool.world.daemonSets i) ∧
    (c.feedDaemonSets i).pool.world.warmImages = c.pool.world.warmImages := by
  obtain ⟨q, r', heq, -, hsynced, -⟩ := feed_spec c childRule c.pool.world.daemonSets
    (fun r w => { w with daemonSets := r }) (fun _ _ _ => rfl) i
  unfold feedDaemonSets
  rw [heq]
  exact ⟨hsynced, rfl⟩

/-- What reflectors do gives a controller no workers. -/
theorem Fed.unmanned (h : Fed c c') (hc : Unmanned c) : Unmanned c' :=
  ⟨fun g => h.takers ▸ hc.takers g, h.jobs.trans hc.jobs, h.issued.trans hc.issued⟩

/-! ## Steps without workers -/

/-- A wait is due to end: its time is up, or the controller was told to stop. -/
def Due (c : Controller (χ × List Issue)) (w : CacheSync) : Prop :=
  w.deadline.reached c.pool.now = true ∨ c.cancelled = true

/-- How a wait ends that ends in vain now. -/
def vainEnd (c : Controller (χ × List Issue)) : End :=
  if c.cancelled then .stopped else .notSynced c.config.cacheSyncTimeout

/-- It is an error that a wait has ended in vain unless the controller was told to stop before. -/
theorem message_vainEnd (c : Controller (χ × List Issue)) :
    c.vainEnd.message = none ↔ c.cancelled = true := by
  unfold vainEnd
  split
  · next h => exact iff_of_true rfl h
  · next h => exact iff_of_false (Option.some_ne_none _) h

/-- The wait has ended in vain: the controller has no workers, and the queue shuts down. -/
structure Ended (y : End) (c : Controller (χ × List Issue)) : Prop where
  unmanned : Unmanned c
  stage : c.stage = .ended y
  shuttingDown : c.pool.queue.shuttingDown = true

/-- A controller without workers that gives up has ended in vain. -/
theorem Unmanned.giveUp (hc : Unmanned c) : Ended c.vainEnd c.giveUp where
  unmanned := ⟨hc.takers, (Pool.jobs_gather _).trans hc.jobs, hc.issued⟩
  stage := rfl
  shuttingDown := WorkQueue.shutDown_shuttingDown c.pool.queue

/-- Without workers, what runs asks nobody for anything. -/
theorem Unmanned.work {t : Task Empty} {before after : List (Task Empty)} (hc : Unmanned c)
    (h : Host χ) (hline : c.pool.line = before ++ t :: after) :
    let p := Pool.perform (craft h.noting) { c.pool with line := before ++ after } t
    Unmanned { c with pool := p } ∧ p.world = c.pool.world ∧ p.now = c.pool.now ∧
      (c.pool.queue.shuttingDown = true → p.queue.shuttingDown = true) := by
  obtain ⟨htakers, hworld, hjobs, hq⟩ :=
    Pool.perform_idle (c := craft h.noting) hc.takers hc.jobs hline
  have hnow := Pool.perform_now (craft h.noting) { c.pool with line := before ++ after } t
  refine ⟨⟨fun g => ?_, hjobs, ?_⟩, hworld, hnow, hq⟩
  · dsimp only
    rw [htakers]
    exact hc.takers g
  · dsimp only [Controller.issued]
    rw [hworld]
    exact hc.issued

/-- Time that passes gives a controller no workers. -/
theorem Unmanned.pass (hc : Unmanned c) (now : Instant) :
    Unmanned { c with pool := c.pool.moveTo now } :=
  ⟨hc.takers, ((Pool.jobs_moveTo c.pool now).trans (.of_eq hc.jobs)).eq_nil, hc.issued⟩

/-- A look at the stores finds that both have held a whole listing, or that the time is up, or else
the wait goes on. -/
theorem verdict_cases (w : CacheSync) (now : Instant) (synced : Bool) :
    (w.next.reached now = true ∧ synced = true ∧ w.look now synced = .synced) ∨
      (w.deadline.reached now = true ∧ w.look now synced = .late) ∨
      (w.deadline.reached now = false ∧ ∃ w', w.look now synced = .waiting w') := by
  unfold CacheSync.look
  split
  · next hs => exact .inl ⟨hs.1, hs.2, rfl⟩
  · split
    · next hd => exact .inr (.inl ⟨hd, rfl⟩)
    · next hd =>
      have hd' := Bool.eq_false_iff.2 hd
      split
      · exact .inr (.inr ⟨hd', _, rfl⟩)
      · exact .inr (.inr ⟨hd', _, rfl⟩)

/-- A controller that waits and looks at its stores gets workers if both have held a whole listing,
gives up if the wait is due to end, or goes on to wait. -/
theorem look_cases (c : Controller (χ × List Issue)) :
    ((∀ w, c.stage ≠ .syncing w) ∧ c.look = c) ∨
    ∃ w, c.stage = .syncing w ∧
      ((w.next.reached c.pool.now = true ∧ c.synced.all id = true ∧ c.look = c.startWorkers) ∨
        (c.Due w ∧ c.look = c.giveUp) ∨
        (¬ c.Due w ∧ ∃ w', c.look = { c with stage := .syncing w' })) := by
  unfold look
  split
  · next w hstage =>
    refine .inr ⟨w, hstage, ?_⟩
    obtain ⟨hn, hs, hw⟩ | ⟨hd, hw⟩ | ⟨hd, w', hw⟩ := verdict_cases w c.pool.now (c.synced.all id)
    · exact .inl ⟨hn, hs, by rw [hw]⟩
    · exact .inr (.inl ⟨.inl hd, by rw [hw]⟩)
    · rw [hw]
      dsimp only
      split
      · next hc => exact .inr (.inl ⟨.inr hc, rfl⟩)
      · next hc => exact .inr (.inr ⟨by simp [Due, hd, hc], w', rfl⟩)
  · next hno => exact .inl ⟨hno, rfl⟩

/-- A controller that takes note that it was told to stop gives up if it waits, and stops if its
workers work. -/
theorem heed_cases (c : Controller (χ × List Issue)) :
    (∃ w, c.stage = .syncing w ∧ c.heed = c.giveUp) ∨
      (c.stage = .working ∧
        c.heed = { c with pool := c.pool.onQueue (·.shutDown), stage := .stopping }) ∨
      ((∀ w, c.stage ≠ .syncing w) ∧ c.heed = c) := by
  unfold heed
  split
  · next w hstage => exact .inl ⟨w, hstage, rfl⟩
  · next hstage => exact .inr (.inl ⟨hstage, rfl⟩)
  · next hno _ => exact .inr (.inr ⟨hno, rfl⟩)

/-- What an event leaves of a controller without workers whose wait does not end in it. A turn of
the wait is such an event only as long as the wait is not due to end. -/
structure Idle (c : Controller (χ × List Issue)) (e : Event) (c' : Controller (χ × List Issue)) :
    Prop where
  unmanned : Unmanned c'
  stage : c'.stage = c.stage ∨ ∃ w w', c.stage = .syncing w ∧ ¬ c.Due w ∧ c'.stage = .syncing w'
  turn : e.isTurn = true → ∀ w, c.stage = .syncing w → ¬ c.Due w
  now_le : c.pool.now.nanos ≤ c'.pool.now.nanos
  cancelled : c.cancelled = true → c'.cancelled = true
  shuttingDown : c.pool.queue.shuttingDown = true → c'.pool.queue.shuttingDown = true
  warmImages : c'.pool.world.warmImages.store.synced = true →
    c.pool.world.warmImages.store.synced = true ∨ TookWarmImages [(c, e)]
  daemonSets : c'.pool.world.daemonSets.store.synced = true →
    c.pool.world.daemonSets.store.synced = true ∨ TookDaemonSets [(c, e)]

/-- What a reflector does leaves the controller idle. -/
theorem Fed.idle (h : Fed c c') (hc : Unmanned c) (hturn : e.isTurn = false)
    (hw : c'.pool.world.warmImages.store.synced = true →
      c.pool.world.warmImages.store.synced = true ∨ TookWarmImages [(c, e)])
    (hd : c'.pool.world.daemonSets.store.synced = true →
      c.pool.world.daemonSets.store.synced = true ∨ TookDaemonSets [(c, e)]) : Idle c e c' :=
  ⟨h.unmanned hc, .inl h.stage, fun h' => Bool.noConfusion (hturn.symm.trans h'),
    Nat.le_of_eq (congrArg Instant.nanos h.now.symm), h.cancelled.trans, h.shuttingDown.trans,
    hw, hd⟩

/-- All that can happen to a controller without workers: it goes on to wait, it gets workers because
it sees that both stores have held a whole listing, or it gives up because the wait is due to
end. -/
theorem Step.cases_of_unmanned (hs : Step h c e c') (hun : Unmanned c)
    (hworking : c.stage ≠ .working) (hstopping : c.stage ≠ .stopping) :
    Idle c e c' ∨ ∃ w, c.stage = .syncing w ∧ e.isTurn = true ∧
      ((e = .look ∧ w.next.reached c.pool.now = true ∧ c.synced.all id = true ∧
          c' = c.startWorkers) ∨
        (c.Due w ∧ c' = c.giveUp)) := by
  have hno : ∀ {e : Event}, e.isTurn = false → e.isTurn = true → ∀ w, c.stage = .syncing w →
      ¬ c.Due w := fun h h' => Bool.noConfusion (h.symm.trans h')
  -- where nothing but the stage changes, it is as before or still that of the wait
  have hsame : ∀ {e : Event}, (e.isTurn = true → ∀ w, c.stage = .syncing w → ¬ c.Due w) →
      ∀ s, (s = c.stage ∨ ∃ w w', c.stage = .syncing w ∧ ¬ c.Due w ∧ s = .syncing w') →
      Idle c e { c with stage := s } := fun hturn s hstage =>
    ⟨⟨hun.takers, hun.jobs, hun.issued⟩, hstage, hturn, Nat.le_refl _, id, id, .inl, .inl⟩
  cases hs with
  | warmImages i hi =>
    obtain ⟨hw, hd⟩ := stores_warmImages c i
    exact .inl ((fed_warmImages c i).idle hun rfl
      (fun hs => (hw hs).imp_right fun ht => ⟨c, i, .head _, ht⟩) fun hs => .inl (hd ▸ hs))
  | daemonSets i hi =>
    obtain ⟨hd, hw⟩ := stores_daemonSets c i
    exact .inl ((fed_daemonSets c i).idle hun rfl (fun hs => .inl (hw ▸ hs))
      fun hs => (hd hs).imp_right fun ht => ⟨c, i, .head _, ht⟩)
  | look =>
    obtain ⟨hwait, hlook⟩ | ⟨w, hw, ⟨hn, hs, hlook⟩ | ⟨hdue, hlook⟩ | ⟨hdue, w', hlook⟩⟩ :=
      look_cases c
    · rw [hlook]
      exact .inl (hsame (fun _ w hw => absurd hw (hwait w)) _ (.inl rfl))
    · exact .inr ⟨w, hw, rfl, .inl ⟨rfl, hn, hs, hlook⟩⟩
    · exact .inr ⟨w, hw, rfl, .inr ⟨hdue, hlook⟩⟩
    · rw [hlook]
      refine .inl (hsame (fun _ w₁ hw₁ => ?_) _ (.inr ⟨w, w', hw, hdue, rfl⟩))
      exact Stage.syncing.inj (hw.symm.trans hw₁) ▸ hdue
  | @expire w hw hd => exact .inr ⟨w, hw, rfl, .inr ⟨.inl hd, rfl⟩⟩
  | heed hc =>
    obtain ⟨w, hw, hheed⟩ | ⟨hw, -⟩ | ⟨hwait, hheed⟩ := heed_cases c
    · exact .inr ⟨w, hw, rfl, .inr ⟨.inr hc, hheed⟩⟩
    · exact absurd hw hworking
    · rw [hheed]
      exact .inl (hsame (fun _ w hw => absurd hw (hwait w)) _ (.inl rfl))
  | cancel =>
    exact .inl ⟨⟨hun.takers, hun.jobs, hun.issued⟩, .inl rfl, hno rfl, Nat.le_refl _, fun _ => rfl,
      id, .inl, .inl⟩
  | rest =>
    unfold Controller.rest
    rw [if_neg fun h => hstopping h.1]
    exact .inl (hsame (hno rfl) _ (.inl rfl))
  | work before after hline =>
    obtain ⟨hun', hworld, hnow, hq⟩ := hun.work h hline
    exact .inl ⟨hun', .inl rfl, hno rfl, Nat.le_of_eq (congrArg Instant.nanos hnow.symm), id, hq,
      fun hs => .inl (hworld ▸ hs), fun hs => .inl (hworld ▸ hs)⟩
  | pass hnow =>
    exact .inl ⟨hun.pass _, .inl rfl, hno rfl, hnow, id, id, .inl, .inl⟩
  | host x =>
    exact .inl ⟨⟨hun.takers, hun.jobs, hun.issued⟩, .inl rfl, hno rfl, Nat.le_refl _, id, id, .inl,
      .inl⟩

/-! ## Runs -/

/-- A listing of warm images that was taken over stays so. -/
theorem TookWarmImages.mono (h : TookWarmImages τ) (hsub : τ ⊆ σ) : TookWarmImages σ := by
  obtain ⟨c, i, hmem, htakes⟩ := h
  exact ⟨c, i, hsub hmem, htakes⟩

/-- A listing of daemon sets that was taken over stays so. -/
theorem TookDaemonSets.mono (h : TookDaemonSets τ) (hsub : τ ⊆ σ) : TookDaemonSets σ := by
  obtain ⟨c, i, hmem, htakes⟩ := h
  exact ⟨c, i, hsub hmem, htakes⟩

/-- The controller never had workers, and a store that has held a whole listing got it from its
reflector. -/
structure Shut (τ : History χ) (c : Controller (χ × List Issue)) : Prop where
  unmanned : Unmanned c
  not_working : c.stage ≠ .working
  not_stopping : c.stage ≠ .stopping
  warmImages : c.pool.world.warmImages.store.synced = true → TookWarmImages τ
  daemonSets : c.pool.world.daemonSets.store.synced = true → TookDaemonSets τ

/-- Where the controller stands with its wait, after what has happened to it: it never had workers,
or both reflectors have taken a listing over and the wait has ended. -/
inductive Gate (τ : History χ) (c : Controller (χ × List Issue)) : Prop
  | shut : Shut τ c → Gate τ c
  | opened :
      TookWarmImages τ → TookDaemonSets τ → (∀ w, c.stage ≠ .syncing w) → Gate τ c

/-- A controller that waits for its stores never had workers. -/
theorem Gate.shut_of_syncing (hg : Gate τ c) (hw : c.stage = .syncing w) : Shut τ c := by
  cases hg with
  | shut hshut => exact hshut
  | opened _ _ hno => exact absurd hw (hno w)

/-- Both stores have held a whole listing only if both reflectors have taken one over. -/
theorem Shut.took (hc : Shut τ c) (hs : c.synced.all id = true) :
    TookWarmImages τ ∧ TookDaemonSets τ := by
  obtain ⟨hw, hd⟩ : c.pool.world.warmImages.store.synced = true ∧
      c.pool.world.daemonSets.store.synced = true := by simpa [synced] using hs
  exact ⟨hc.warmImages hw, hc.daemonSets hd⟩

/-- An event leaves a controller that never had workers without them, unless it is a turn of the
wait: a look that finds that both stores have held a whole listing starts the workers, and a wait
that is due to end may end in vain. -/
theorem Shut.step_cases (hc : Shut τ c) (hs : Step h c e c') :
    Idle c e c' ∨ ∃ w, c.stage = .syncing w ∧ e.isTurn = true ∧
      ((e = .look ∧ w.next.reached c.pool.now = true ∧ c.synced.all id = true ∧
          c' = c.startWorkers) ∨
        (c.Due w ∧ c' = c.giveUp)) :=
  hs.cases_of_unmanned hc.unmanned hc.not_working hc.not_stopping

/-- A controller that never had workers still has had none after an event that ends no wait. -/
theorem Idle.shut (hi : Idle c e c') (hc : Shut τ c) : Shut (τ ++ [(c, e)]) c' := by
  have hstage : c'.stage = c.stage ∨ ∃ w, c'.stage = .syncing w :=
    hi.stage.imp_right fun ⟨_, w, _, _, hw⟩ => ⟨w, hw⟩
  have hkept : ∀ s, (∀ w, s ≠ .syncing w) → c.stage ≠ s → c'.stage ≠ s := by
    rintro s hs hne rfl
    obtain hsame | ⟨w, hw⟩ := hstage
    · exact hne hsame.symm
    · exact hs w hw
  have hpast := List.subset_append_left τ [(c, e)]
  have hlast := List.subset_append_right τ [(c, e)]
  exact ⟨hi.unmanned, hkept _ nofun hc.not_working, hkept _ nofun hc.not_stopping,
    fun hs => (hi.warmImages hs).elim (fun h => (hc.warmImages h).mono hpast) (·.mono hlast),
    fun hs => (hi.daemonSets hs).elim (fun h => (hc.daemonSets h).mono hpast) (·.mono hlast)⟩

/-- A wait that has ended is not begun again. -/
theorem Step.not_syncing (hs : Step h c e c') (hc : ∀ w, c.stage ≠ .syncing w) (w : CacheSync) :
    c'.stage ≠ .syncing w := by
  cases hs with
  | warmImages i =>
    rw [(fed_warmImages c i).stage]
    exact hc w
  | daemonSets i =>
    rw [(fed_daemonSets c i).stage]
    exact hc w
  | look =>
    obtain ⟨-, hlook⟩ | ⟨w', hw', -⟩ := look_cases c
    · rw [hlook]
      exact hc w
    · exact absurd hw' (hc w')
  | expire hw' _ => exact absurd hw' (hc _)
  | heed =>
    obtain ⟨w', hw', -⟩ | ⟨-, hheed⟩ | ⟨-, hheed⟩ := heed_cases c
    · exact absurd hw' (hc w')
    · rw [hheed]
      nofun
    · rw [hheed]
      exact hc w
  | rest =>
    unfold Controller.rest
    split
    · nofun
    · exact hc w
  | cancel | work | pass | host => exact hc w

/-- Every event keeps the gate: workers come only when both reflectors have taken a listing over. -/
theorem Step.gate (hs : Step h c e c') (hc : Gate τ c) : Gate (τ ++ [(c, e)]) c' := by
  have hpast := List.subset_append_left τ [(c, e)]
  cases hc with
  | opened hwarm hdaemon hno =>
    exact .opened (hwarm.mono hpast) (hdaemon.mono hpast) (hs.not_syncing hno)
  | shut hshut =>
    obtain hidle | ⟨w, -, -, ⟨-, -, hsynced, rfl⟩ | ⟨-, rfl⟩⟩ := hshut.step_cases hs
    · exact .shut (hidle.shut hshut)
    · obtain ⟨hwarm, hdaemon⟩ := hshut.took hsynced
      exact .opened (hwarm.mono hpast) (hdaemon.mono hpast) nofun
    · have hwarm := fun hs => (hshut.warmImages hs).mono hpast
      have hdaemon := fun hs => (hshut.daemonSets hs).mono hpast
      exact .shut ⟨hshut.unmanned.giveUp.unmanned, nofun, nofun, hwarm, hdaemon⟩

/-- A controller that begins has no workers. -/
theorem gate_opening (config : Config) (now : Instant) (x : χ) :
    Gate [] (opening config now (x, [])) := by
  have hstage : ∀ s : Stage, s = .working ∨ s = .stopping →
      (opening config now (x, ([] : List Issue))).stage ≠ s := by
    unfold opening
    rintro s (rfl | rfl) <;> cases CacheSync.begin? now config.cacheSyncTimeout <;> nofun
  exact .shut ⟨⟨fun g => rfl, rfl, rfl⟩, hstage _ (.inl rfl), hstage _ (.inr rfl), nofun, nofun⟩

/-- In every run the gate is kept. -/
theorem Run.gate {config : Config} {now : Instant} {x : χ}
    (hr : Run h (opening config now (x, [])) τ c) : Gate τ c := by
  induction hr with
  | start => exact gate_opening config now x
  | next _ hs ih => exact hs.gate ih

/-- A wait that is due to end stays so until it has its turn. -/
theorem Run.due {c₀ : Controller (χ × List Issue)} (hr : Run h c₀ ρ c) (hc₀ : Shut τ c₀)
    (hw : c₀.stage = .syncing w) (hdue : c₀.Due w) (hno : ∀ x ∈ ρ, x.2.isTurn = false) :
    Shut (τ ++ ρ) c ∧ c.stage = .syncing w ∧ c.Due w := by
  induction hr with
  | start => exact ⟨by rwa [List.append_nil], hw, hdue⟩
  | @next ρ c c' e _ hs ih =>
    obtain ⟨hc, hw₁, hdue₁⟩ := ih fun x hx => hno x (List.mem_append_left _ hx)
    have hturn : e.isTurn = false := hno (c, e) (List.mem_append_right _ (.head _))
    obtain hidle | ⟨_, -, hturn', -⟩ := hc.step_cases hs
    · refine ⟨List.append_assoc τ ρ _ ▸ hidle.shut hc, ?_, ?_⟩
      · obtain hsame | ⟨w', -, hw', hno', -⟩ := hidle.stage
        · exact hsame.trans hw₁
        · exact absurd (Stage.syncing.inj (hw₁.symm.trans hw') ▸ hdue₁) hno'
      · refine hdue₁.imp (fun hd => ?_) hidle.cancelled
        have hle := hidle.now_le
        simp only [Instant.reached, decide_eq_true_eq] at hd ⊢
        omega
    · exact Bool.noConfusion (hturn.symm.trans hturn')

/-- A wait that has ended in vain stays so, whatever happens. -/
theorem Step.ended (hs : Step h c e c') (hc : Ended y c) : Ended y c' := by
  have hne : ∀ s, .ended y ≠ s → c.stage ≠ s := fun s hs hs' => hs (hc.stage.symm.trans hs')
  have hno : ∀ w, c.stage ≠ .syncing w := fun w => hne _ nofun
  obtain hidle | ⟨w, hw, -⟩ := hs.cases_of_unmanned hc.unmanned (hne _ nofun) (hne _ nofun)
  · obtain hsame | ⟨w, -, hw, -⟩ := hidle.stage
    · exact ⟨hidle.unmanned, hsame.trans hc.stage, hidle.shuttingDown hc.shuttingDown⟩
    · exact absurd hw (hno w)
  · exact absurd hw (hno w)

/-- A wait that has ended in vain stays so ever after. -/
theorem Run.ended {c₀ : Controller (χ × List Issue)} (hr : Run h c₀ τ c) (h₀ : Ended y c₀) :
    Ended y c := by
  induction hr with
  | start => exact h₀
  | next _ hs ih => exact hs.ended ih

/-- Whatever happens to a controller and in whichever order, nobody is asked for anything in its
work unless both reflectors have taken a whole listing over before and put all of its changes on the
queue.

The wait for that ends in vain only if it is due to end: its time is up, or the controller was told
to stop. From then on the next turn of the wait decides, and it can come at any time. If it is a
look at the stores for which it is time, and if both reflectors have taken a listing over by then,
the wait may still end well. In all other cases nobody is ever asked for anything, and the queue
shuts down for good; the controller ends with an error if and only if it has not been told to stop
by then, and its time is up then. -/
theorem nothing_before_listings {config : Config} {now : Instant} {x : χ}
    (hr : Run h (opening config now (x, [])) τ c) :
    (∀ e c', Step h c e c' → c'.issued ≠ c.issued → TookWarmImages τ ∧ TookDaemonSets τ) ∧
    ∀ w, c.stage = .syncing w →
      (∀ e c' y, Step h c e c' → c'.stage = .ended y → e.isTurn = true ∧ c.Due w) ∧
      (c.Due w → ∀ ρ c₁, Run h c ρ c₁ → (∀ x ∈ ρ, x.2.isTurn = false) →
        c₁.issued = [] ∧ (∃ e c', Step h c₁ e c' ∧ e.isTurn = true) ∧
        ∀ e c', Step h c₁ e c' → e.isTurn = true →
          (e = .look ∧ w.next.reached c₁.pool.now = true ∧
            TookWarmImages (τ ++ ρ) ∧ TookDaemonSets (τ ++ ρ)) ∨
          ∃ y, (y.message = none ↔ c₁.cancelled = true) ∧
            (c₁.cancelled = true ∨ w.deadline.reached c₁.pool.now = true) ∧
            ∀ σ c₂, Run h c' σ c₂ →
              c₂.issued = [] ∧ c₂.stage = .ended y ∧ c₂.pool.queue.shuttingDown = true) := by
  have hgate := hr.gate
  refine ⟨fun e c' hs hne => ?_, fun w hw => ?_⟩
  · cases hgate with
    | opened hwarm hdaemon _ => exact ⟨hwarm, hdaemon⟩
    | shut hshut =>
      -- without workers every event leaves the list of what was asked empty
      have hissued := hshut.unmanned.issued
      obtain hidle | ⟨w, -, -, ⟨-, -, -, rfl⟩ | ⟨-, rfl⟩⟩ := hshut.step_cases hs
      · exact absurd (hidle.unmanned.issued.trans hissued.symm) hne
      · simp [Controller.issued, Controller.startWorkers] at hne
      · exact absurd (hshut.unmanned.giveUp.unmanned.issued.trans hissued.symm) hne
  have hshut := hgate.shut_of_syncing hw
  refine ⟨fun e c' y hs hy => ?_, fun hdue ρ c₁ hρ hno => ?_⟩
  · obtain hidle | ⟨w₁, hw₁, hturn, ⟨-, -, -, rfl⟩ | ⟨hdue, -⟩⟩ := hshut.step_cases hs
    · obtain hsame | ⟨_, w', -, -, hw'⟩ := hidle.stage
      · cases hw.symm.trans (hsame.symm.trans hy)
      · cases hw'.symm.trans hy
    · cases hy
    · exact ⟨hturn, Stage.syncing.inj (hw₁.symm.trans hw) ▸ hdue⟩
  · obtain ⟨hshut₁, hw₁, hdue₁⟩ := hρ.due hshut hw hdue hno
    refine ⟨hshut₁.unmanned.issued, ⟨.look, _, .look, rfl⟩, fun e c' hs hturn => ?_⟩
    obtain hidle | ⟨w', hw', -, hend⟩ := hshut₁.step_cases hs
    · exact absurd hdue₁ (hidle.turn hturn w hw₁)
    · obtain rfl : w' = w := Stage.syncing.inj (hw'.symm.trans hw₁)
      obtain ⟨he, hnext, hsynced, -⟩ | ⟨-, rfl⟩ := hend
      · exact .inl ⟨he, hnext, hshut₁.took hsynced⟩
      · refine .inr ⟨_, message_vainEnd c₁, hdue₁.symm, fun σ c₂ hσ => ?_⟩
        have hended := hσ.ended hshut₁.unmanned.giveUp
        exact ⟨hended.unmanned.issued, hended.stage, hended.shuttingDown⟩

/-- A listing fails, and a second later the time to wait is up: the controller ends with an error
when it looks at its stores, and nobody was asked for anything. -/
theorem nothing_before_listings_late :
    let h : Host Unit :=
      ⟨fun _ _ => pure ⟨500, []⟩, fun _ _ => pure ⟨500, []⟩, fun _ _ => pure none⟩
    let config : Config := ⟨"sleeper", 1, 600, 1, none, 30, 8080⟩
    let c := (opening config ⟨0⟩ ((), [])).feedWarmImages (.listed (.error .unreadable))
    let late := { c with pool := c.pool.moveTo ⟨1000000000⟩ }
    (∃ τ, Run h (opening config ⟨0⟩ ((), [])) τ late) ∧ late.Due ⟨⟨0⟩, ⟨1000000000⟩⟩ ∧
      ∃ y, y.message ≠ none ∧ late.look.issued = [] ∧ late.look.stage = .ended y ∧
        late.look.pool.queue.shuttingDown = true := by
  intro h config c late
  have hlisted : Run h (opening config ⟨0⟩ ((), [])) _ c := .next .start (.warmImages _ nofun)
  have hlate : Run h (opening config ⟨0⟩ ((), [])) _ late := .next hlisted (.pass (by decide))
  have hdue : late.Due ⟨⟨0⟩, ⟨1000000000⟩⟩ := .inl (by decide +kernel)
  have hstage : late.stage = .syncing ⟨⟨0⟩, ⟨1000000000⟩⟩ := by decide +kernel
  obtain ⟨-, hsyncing⟩ := nothing_before_listings hlate
  obtain ⟨-, hends⟩ := hsyncing _ hstage
  have hturn := (hends hdue [] late .start fun _ hx => absurd hx List.not_mem_nil).2.2
  refine ⟨⟨_, hlate⟩, hdue, ?_⟩
  rcases hturn .look late.look .look rfl with hlisted | ⟨y, hmessage, -, hend⟩
  · obtain ⟨c', i, hmem, -⟩ := hlisted.2.2.2
    simp at hmem
  · have hno : late.cancelled ≠ true := by decide +kernel
    exact ⟨y, fun h => hno (hmessage.1 h), hend [] late.look .start⟩

end

/-! ## What may come between -/

/-- Those who answer that all went well. -/
def obligingHost : Host Unit :=
  ⟨fun _ _ => pure ⟨200, []⟩, fun _ _ => pure ⟨200, []⟩, fun _ _ => pure none⟩

/-- A warm image that has no child. -/
def childless : WarmImage :=
  { metadata := { name := some "a", ns := some "ns" }, image := "a@sha256:1" }

/-- Settings of a controller that waits for its stores for a second. -/
def brief : Config := ⟨"sleeper", 1, 600, 1, none, 30, 8080⟩

/-- A controller that has looked at its stores when it began and then taken a listing of warm images
over. -/
def halfListed : Controller (Unit × List Issue) :=
  (opening brief .start ((), [])).look.feedWarmImages (.listed (.ok ([childless], "1")))

/-- The same controller some time later. -/
def halfListedAt (now : Instant) : Controller (Unit × List Issue) :=
  { halfListed with pool := halfListed.pool.moveTo now }

/-- What becomes of a controller that takes a listing of daemon sets over and then looks at its
stores. -/
def afterListing (c : Controller (Unit × List Issue)) : Controller (Unit × List Issue) :=
  let c := (c.feedDaemonSets (.listed (.ok ([], "1")))).look
  { c with pool := c.pool.settle (craft obligingHost.noting) 10 }

/-- A controller comes to have listed warm images only, at any instant. -/
theorem run_halfListedAt (now : Instant) :
    ∃ τ, Run obligingHost (opening brief .start ((), [])) τ (halfListedAt now) := by
  have hlooked : Run obligingHost (opening brief .start ((), [])) _ _ := Run.start.next .look
  have hlisted : Run obligingHost (opening brief .start ((), [])) _ halfListed :=
    hlooked.next (.warmImages _ nofun)
  have hstart : halfListed.pool.now = .start := by decide +kernel
  have hnow : halfListed.pool.now.nanos ≤ now.nanos := by
    rw [hstart]
    exact Nat.zero_le _
  exact ⟨_, hlisted.next (.pass hnow)⟩

/-- Daemon sets may be listed, and the stores looked at, right after anything else. -/
theorem run_afterListing (c : Controller (Unit × List Issue)) :
    ∃ σ, Run obligingHost c σ (afterListing c) :=
  ((Run.start.next (.daemonSets (.listed (.ok ([], "1"))) nofun)).next .look).settle 10

/-- The controller may be told to stop, or its time may be up, before the daemon sets were listed,
and yet it begins to work, since they are listed before the wait has its turn. A controller whose
time the clock cannot show has no wait, and never takes note that it was told to stop. -/
theorem work_after_stop :
    let begun := opening brief .start ((), [])
    (∃ τ c w, Run obligingHost begun τ c ∧ c.stage = .syncing w ∧ c.synced = [true, false] ∧
      c.cancelled = true ∧ ∃ σ c₂, Run obligingHost c σ c₂ ∧ c₂.issued ≠ []) ∧
    (∃ τ c w, Run obligingHost begun τ c ∧ c.stage = .syncing w ∧ c.synced = [true, false] ∧
      w.deadline.reached c.pool.now = true ∧ ∃ σ c₂, Run obligingHost c σ c₂ ∧ c₂.issued ≠ []) ∧
    ∃ τ c, Run obligingHost
        (opening { brief with cacheSyncSeconds := 18446744073709551615 } .start ((), [])) τ c ∧
      c.cancelled = true ∧ c.stage = .ended .noDeadline ∧
      c.pool.queue.shuttingDown = false := by
  refine ⟨?_, ?_, ?_⟩
  · obtain ⟨τ, hr⟩ := run_halfListedAt (.ofMillis 100)
    obtain ⟨σ, hσ⟩ := run_afterListing (halfListedAt (.ofMillis 100)).cancel
    refine ⟨_, _, ⟨.ofMillis 100, .ofMillis 1000⟩, hr.next .cancel, ?_, ?_, rfl, σ, _, hσ, ?_⟩
    · decide +kernel
    · decide +kernel
    · exact fun h => absurd (congrArg List.isEmpty h) (by decide +kernel)
  · obtain ⟨τ, hr⟩ := run_halfListedAt (.ofMillis 1000)
    obtain ⟨σ, hσ⟩ := run_afterListing (halfListedAt (.ofMillis 1000))
    refine ⟨_, _, ⟨.ofMillis 100, .ofMillis 1000⟩, hr, ?_, ?_, by decide, σ, _, hσ, ?_⟩
    · decide +kernel
    · decide +kernel
    · exact fun h => absurd (congrArg List.isEmpty h) (by decide +kernel)
  · exact ⟨_, _, Run.start.next .cancel, rfl, by decide +kernel, by decide +kernel⟩

end Controller

end Prewarm
