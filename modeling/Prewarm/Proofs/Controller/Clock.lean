import Prewarm.Proofs.Controller.Gate

/-!
# Settings beyond the clock

Two settings are added to the reading of the clock: the time the first listings may take, when the
controller begins, and the time between two listings, whenever a reflector has taken one over. Both
may be any number of seconds that fits a word, and the clock cannot show the sum of every such
number (`accepted_beyond_clock`). Exactly then something breaks off (`breaks_off_exactly`): the
controller before it has begun to wait, or a reflector with the listing that it takes over.

A reflector that has broken off stays as it is, with all that its store holds (`Stays`), and nothing
else takes note of it. So the stores count as having held a listing, the workers begin, and what
they find in the store is never brought up to date.
-/

namespace Prewarm

namespace Reflector

section
variable {α : Type} [Resource α] {r r' r'' : Reflector α} {now : Instant} {i : Input α}

/-- Whether a reflector takes a whole listing over in what happens to it. -/
def TakesListing (r : Reflector α) (i : Input α) : Prop :=
  r.phase = .listing ∧ ∃ as version, i = .listed (.ok (as, version))

/-- Whether a reflector breaks off by itself in what happens to it. -/
def BreaksOff (r : Reflector α) (now : Instant) (i : Input α) : Prop :=
  r.phase ≠ .broken ∧ (r.step now i).1.phase = .broken

omit [Resource α] in
/-- What a reflector is later on: its resync period is the same, and if it has broken off it is the
same altogether. -/
structure Stays (r r' : Reflector α) : Prop where
  resync : r'.resync = r.resync
  broken : r.phase = .broken → r' = r

omit [Resource α] in
theorem Stays.refl (r : Reflector α) : r.Stays r := ⟨rfl, fun _ => rfl⟩

omit [Resource α] in
theorem Stays.trans (h : r.Stays r') (h' : r'.Stays r'') : r.Stays r'' := by
  refine ⟨h'.resync.trans h.resync, fun hbroken => ?_⟩
  obtain rfl := h.broken hbroken
  exact h'.broken hbroken

/-- A change of a single object does not matter to what a reflector waits for and how long. -/
theorem keeps_takeChange (r : Reflector α) (c : Change α) :
    (r.takeChange c).1.resync = r.resync ∧ (r.takeChange c).1.phase = r.phase := by
  unfold takeChange
  cases c <;> exact ⟨rfl, rfl⟩

/-- A step leaves the resync period as it is. After it a reflector has broken off if it had before,
or if it takes a listing over and the clock cannot show the end of its resync period. -/
theorem step_spec (r : Reflector α) (now : Instant) (i : Input α) :
    (r.step now i).1.resync = r.resync ∧ ((r.step now i).1.phase = .broken ↔
      r.phase = .broken ∨ r.TakesListing i ∧ now.add? r.resync = none) := by
  by_cases htakes : r.TakesListing i
  · obtain ⟨hphase, as, version, rfl⟩ := id htakes
    have hstep : r.step now (.listed (.ok (as, version))) = r.takeListing now as version := by
      simp [step, hphase]
    rw [hstep]
    unfold takeListing
    cases now.add? r.resync <;> simp [htakes, hphase]
  · obtain ⟨as, version, rfl, hphase, -⟩ | ⟨c, deadline, heard, -, hphase, hstep⟩ |
      ⟨p, d, hstep, hp⟩ := r.step_cases now i
    · exact absurd ⟨hphase, as, version, rfl⟩ htakes
    · obtain ⟨hresync, hkept⟩ := keeps_takeChange { r with phase := .watching deadline true } c
      rw [hstep, hresync, hkept]
      simp [htakes, hphase]
    · rw [hstep]
      simp [htakes, hp]

/-- A reflector breaks off by itself when it takes a listing over and the clock cannot show the end
of its resync period, and only then. -/
theorem breaksOff_iff : r.BreaksOff now i ↔ r.TakesListing i ∧ now.add? r.resync = none := by
  unfold BreaksOff
  rw [(r.step_spec now i).2]
  constructor
  · rintro ⟨hne, hbroken | htakes⟩
    · exact absurd hbroken hne
    · exact htakes
  · rintro ⟨htakes, hend⟩
    exact ⟨by simp [htakes.1], .inr ⟨htakes, hend⟩⟩

/-- No input of a reflector changes its resync period, nor anything of one that has broken off. -/
theorem stays_step (r : Reflector α) (now : Instant) (i : Input α) :
    r.Stays (r.step now i).1 :=
  ⟨(r.step_spec now i).1, fun h => step_of_broken h now i⟩

/-- One who is told of the changes breaks off, and with it the reflector. -/
theorem stays_breakOff (r : Reflector α) (now : Instant) (i : Input α) :
    r.Stays ((r.step now i).1.breakOff r) := by
  refine ⟨(r.stays_step now i).resync, fun h => ?_⟩
  rw [step_of_broken h]
  obtain ⟨resync, store, version, phase, rest⟩ := r
  cases show phase = .broken from h
  rfl

end

end Reflector

namespace Controller

section
variable {χ : Type} {h : Host χ} {c c' c'' c₀ : Controller (χ × List Issue)} {e : Event}
  {τ : History χ}

/-- Whether a reflector takes a whole listing over in an event. -/
def Lists (c : Controller χ) : Event → Prop
  | .warmImages i => c.pool.world.warmImages.TakesListing i
  | .daemonSets i => c.pool.world.daemonSets.TakesListing i
  | _ => False

/-- Whether a reflector breaks off by itself in an event. -/
def BreaksOff (c : Controller χ) : Event → Prop
  | .warmImages i => c.pool.world.warmImages.BreaksOff c.pool.now i
  | .daemonSets i => c.pool.world.daemonSets.BreaksOff c.pool.now i
  | _ => False

/-- The reflectors are as they were. -/
structure Surroundings.SameReflectors (w w' : Surroundings χ) : Prop where
  warmImages : w'.warmImages = w.warmImages
  daemonSets : w'.daemonSets = w.daemonSets

theorem Surroundings.SameReflectors.trans {w w' w'' : Surroundings χ} (h : w.SameReflectors w')
    (h' : w'.SameReflectors w'') : w.SameReflectors w'' :=
  ⟨h'.warmImages.trans h.warmImages, h'.daemonSets.trans h.daemonSets⟩

/-- What a controller is later on, as far as the clock matters to it. -/
structure Onward (c c' : Controller χ) : Prop where
  warmImages : c.pool.world.warmImages.Stays c'.pool.world.warmImages
  daemonSets : c.pool.world.daemonSets.Stays c'.pool.world.daemonSets
  now_le : c.pool.now.nanos ≤ c'.pool.now.nanos
  stage : c'.stage = .ended .noDeadline ↔ c.stage = .ended .noDeadline

theorem Onward.refl (c : Controller χ) : Onward c c :=
  ⟨.refl _, .refl _, Nat.le_refl _, Iff.rfl⟩

/-- What a controller is later on than one that it is later on, it is later on. -/
theorem Onward.trans {c c' c'' : Controller χ} (h : Onward c c') (h' : Onward c' c'') :
    Onward c c'' :=
  ⟨h.warmImages.trans h'.warmImages, h.daemonSets.trans h'.daemonSets,
    Nat.le_trans h.now_le h'.now_le, h'.stage.trans h.stage⟩

/-- The reflectors and the clock are as they were. -/
theorem Onward.of_eq {c c' : Controller χ} (hworld : c.pool.world.SameReflectors c'.pool.world)
    (hnow : c'.pool.now = c.pool.now)
    (hstage : c'.stage = .ended .noDeadline ↔ c.stage = .ended .noDeadline) : Onward c c' :=
  ⟨hworld.warmImages ▸ .refl _, hworld.daemonSets ▸ .refl _,
    Nat.le_of_eq (congrArg Instant.nanos hnow.symm), hstage⟩

/-! ## Steps -/

/-- A reflector to which something happens is kept so, whether or not its changes could be put on
the queue. -/
theorem stays_feed {α : Type} [Resource α] (c : Controller χ) (rule : EnqueueRule)
    (r : Reflector α) (put : Reflector α → Surroundings χ → Surroundings χ)
    (hput : ∀ a b w, put a (put b w) = put a w) (i : Reflector.Input α) :
    ∃ q r', c.feed rule r put i =
        { c with pool := { ({ c.pool with queue := q } : Pool _ _).gather with
          world := put r' c.pool.world } } ∧ r.Stays r' := by
  obtain ⟨q, r', heq, -, -, hr'⟩ := feed_spec c rule r put hput i
  refine ⟨q, r', heq, ?_⟩
  rcases hr' with rfl | rfl
  · exact r.stays_step _ i
  · exact r.stays_breakOff _ i

/-- What happens to the reflector of warm images moves the controller on. -/
theorem onward_warmImages (c : Controller χ) (i : Reflector.Input WarmImage) :
    Onward c (c.feedWarmImages i) := by
  obtain ⟨q, r', heq, hstays⟩ := stays_feed c parentRule c.pool.world.warmImages
    (fun r w => { w with warmImages := r }) (fun _ _ _ => rfl) i
  unfold feedWarmImages
  rw [heq]
  exact ⟨hstays, .refl _, Nat.le_refl _, Iff.rfl⟩

/-- What happens to the reflector of daemon sets moves the controller on. -/
theorem onward_daemonSets (c : Controller χ) (i : Reflector.Input DaemonSet) :
    Onward c (c.feedDaemonSets i) := by
  obtain ⟨q, r', heq, hstays⟩ := stays_feed c childRule c.pool.world.daemonSets
    (fun r w => { w with daemonSets := r }) (fun _ _ _ => rfl) i
  unfold feedDaemonSets
  rw [heq]
  exact ⟨.refl _, hstays, Nat.le_refl _, Iff.rfl⟩

/-- An answer that the work of the controller gets leaves the reflectors as they are. -/
theorem sameReflectors_answer {χ : Type} (h : Host χ) (now : Instant) (q : Reconcile.Query)
    (w : Surroundings χ) : w.SameReflectors (Surroundings.answer h now q w).2 := by
  have hcall : ∀ {α : Type} (c : Cluster.Call α), w.SameReflectors (w.call h now c).2 :=
    fun _ => ⟨rfl, rfl⟩
  unfold Surroundings.answer
  cases q with
  | secret | deleteCollection => exact hcall _
  | create ns child => exact hcall (Cluster.create ns child)
  | isPending | expect | observed | digest | publish => exact ⟨rfl, rfl⟩

/-- The work on a key leaves the reflectors alone. -/
theorem sameReflectors_work {χ : Type} (h : Host χ) (now : Instant) (k : Key)
    (w : Surroundings χ) : w.SameReflectors (w.work h now k).2 := by
  unfold Surroundings.work
  generalize Reconcile.dialogue w.context k = d
  show w.SameReflectors ((d.run (Surroundings.answer h now)).run w).2
  induction d generalizing w with
  | done r => exact ⟨rfl, rfl⟩
  | ask q next ih => exact (sameReflectors_answer h now q w).trans (ih _ _)

/-- A controller that gives up has ended, but not because of the clock. -/
theorem onward_giveUp {w : CacheSync} (hw : c.stage = .syncing w) : Onward c c.giveUp := by
  refine .of_eq ⟨rfl, rfl⟩ rfl (iff_of_false (fun h => ?_) (by rw [hw]; nofun))
  unfold giveUp at h
  dsimp only at h
  split at h <;> cases h

/-- Every event moves a controller on: it never turns the clock back, and what has broken off stays
so. -/
theorem Step.onward (hs : Step h c e c') : Onward c c' := by
  -- a stage that changes is not the one without a deadline, and does not become it
  have hother : ∀ {s s' : Stage}, s ≠ .ended .noDeadline → s' ≠ .ended .noDeadline →
      (s' = .ended .noDeadline ↔ s = .ended .noDeadline) := fun hs hs' => iff_of_false hs' hs
  cases hs with
  | warmImages i => exact onward_warmImages c i
  | daemonSets i => exact onward_daemonSets c i
  | look =>
    obtain ⟨-, hlook⟩ | ⟨w, hw, ⟨-, -, hlook⟩ | ⟨-, hlook⟩ | ⟨-, w', hlook⟩⟩ := look_cases c
    · rw [hlook]
      exact .refl c
    · have hworld := Pool.joinWorkers_world c.pool (max c.config.workers 1)
      have hnow := (Pool.joinWorkers_spec c.pool rfl (max c.config.workers 1)).1
      rw [hlook]
      exact .of_eq ⟨congrArg _ hworld, congrArg _ hworld⟩ hnow (hother (by rw [hw]; nofun) nofun)
    · rw [hlook]
      exact onward_giveUp hw
    · rw [hlook]
      exact .of_eq ⟨rfl, rfl⟩ rfl (hother (by rw [hw]; nofun) nofun)
  | expire hw _ => exact onward_giveUp hw
  | heed =>
    obtain ⟨w, hw, hheed⟩ | ⟨hw, hheed⟩ | ⟨-, hheed⟩ := heed_cases c
    · rw [hheed]
      exact onward_giveUp hw
    · rw [hheed]
      exact .of_eq ⟨rfl, rfl⟩ rfl (hother (by rw [hw]; nofun) nofun)
    · rw [hheed]
      exact .refl c
  | cancel => exact .of_eq ⟨rfl, rfl⟩ rfl Iff.rfl
  | rest =>
    unfold Controller.rest
    split
    · next hrest => exact .of_eq ⟨rfl, rfl⟩ rfl (hother (by rw [hrest.1]; nofun) nofun)
    · exact .refl c
  | @work t before after hline =>
    let p : Pool (Surroundings (χ × List Issue)) Empty := { c.pool with line := before ++ after }
    have hworld := Pool.perform_world (c := craft h.noting) (P := c.pool.world.SameReflectors) p t
      (fun now k w hw => hw.trans (sameReflectors_work h.noting now k w))
      (fun _ _ rest => nomatch rest) (fun _ _ _ _ => id) ⟨rfl, rfl⟩
    exact .of_eq hworld (Pool.perform_now (craft h.noting) p t) Iff.rfl
  | pass hnow => exact ⟨.refl _, .refl _, hnow, Iff.rfl⟩
  | host x => exact .of_eq ⟨rfl, rfl⟩ rfl Iff.rfl

/-! ## Runs -/

/-- A run moves a controller on, and so does each part of it. -/
theorem Run.onward (hr : Run h c₀ τ c) :
    Onward c₀ c ∧ ∀ c' e, (c', e) ∈ τ → Onward c₀ c' ∧ Onward c' c := by
  induction hr with
  | start => exact ⟨.refl _, fun _ _ hmem => absurd hmem List.not_mem_nil⟩
  | next _ hs ih =>
    obtain ⟨honward, hpast⟩ := ih
    refine ⟨honward.trans hs.onward, fun c' e hmem => ?_⟩
    rcases List.mem_append.1 hmem with hmem | hmem
    · exact ⟨(hpast c' e hmem).1, (hpast c' e hmem).2.trans hs.onward⟩
    · cases List.mem_singleton.1 hmem
      exact ⟨honward, hs.onward⟩

/-- The controller breaks off before it waits if and only if the clock cannot show the end of the
time that the first listings may take. -/
theorem noDeadline_opening {χ : Type} {config : Config} {start : Instant} {x : χ} :
    (opening config start x).stage = .ended .noDeadline ↔
      Instant.horizon ≤ start.nanos / 1_000_000_000 + config.cacheSyncSeconds := by
  rw [← Instant.add?_ofSeconds_eq_none_iff]
  unfold opening CacheSync.begin? Config.cacheSyncTimeout
  cases start.add? (.ofSeconds config.cacheSyncSeconds) <;> simp

/-- Whatever the settings are, and whatever happens to a controller: it breaks off when it begins if
and only if its beginning and the time for the first listings add up to more seconds than the clock
can show. A reflector breaks off by itself in an event if and only if it takes a listing over and
the reading of the clock and the time between two listings add up to more; so none has done so as
long as these add up to less. A reflector that has broken off stays as it is, with all that its
store holds, whatever happens from then on. -/
theorem breaks_off_exactly {config : Config} {start : Instant} {x : χ}
    (hr : Run h (opening config start (x, [])) τ c) :
    (c.stage = .ended .noDeadline ↔
      Instant.horizon ≤ start.nanos / 1_000_000_000 + config.cacheSyncSeconds) ∧
    (∀ c' e, (c', e) ∈ τ → (c'.BreaksOff e ↔ c'.Lists e ∧
      Instant.horizon ≤ c'.pool.now.nanos / 1_000_000_000 + config.resyncSeconds)) ∧
    (c.pool.now.nanos / 1_000_000_000 + config.resyncSeconds < Instant.horizon →
      ∀ c' e, (c', e) ∈ τ → ¬ c'.BreaksOff e) ∧
    ∀ σ c₂, Run h c σ c₂ →
      (c.pool.world.warmImages.phase = .broken →
        c₂.pool.world.warmImages = c.pool.world.warmImages) ∧
      (c.pool.world.daemonSets.phase = .broken →
        c₂.pool.world.daemonSets = c.pool.world.daemonSets) := by
  obtain ⟨honward, hpast⟩ := hr.onward
  have hiff : ∀ c' e, (c', e) ∈ τ → (c'.BreaksOff e ↔ c'.Lists e ∧
      Instant.horizon ≤ c'.pool.now.nanos / 1_000_000_000 + config.resyncSeconds) := by
    intro c' e hmem
    obtain ⟨hfirst, -⟩ := hpast c' e hmem
    have hwarm : c'.pool.world.warmImages.resync = .ofSeconds config.resyncSeconds :=
      hfirst.warmImages.resync
    have hdaemon : c'.pool.world.daemonSets.resync = .ofSeconds config.resyncSeconds :=
      hfirst.daemonSets.resync
    rw [← Instant.add?_ofSeconds_eq_none_iff]
    cases e with
    | warmImages i =>
      rw [← hwarm]
      exact Reflector.breaksOff_iff
    | daemonSets i =>
      rw [← hdaemon]
      exact Reflector.breaksOff_iff
    | look | expire | heed | cancel | rest | work | pass | host =>
      exact iff_of_false id fun h => h.1
  refine ⟨honward.stage.trans noDeadline_opening, hiff, fun hnow c' e hmem hbreaks => ?_,
    fun σ c₂ hr₂ => ?_⟩
  · have hle := (hpast c' e hmem).2.now_le
    have hlate := ((hiff c' e hmem).1 hbreaks).2
    omega
  · have honward₂ := hr₂.onward.1
    exact ⟨honward₂.warmImages.broken, honward₂.daemonSets.broken⟩

/-- With as many seconds between two listings as fit a word, the reflector of warm images breaks off
with its first listing, and stays as it is then. -/
theorem breaks_off_exactly_frozen :
    let config : Config := ⟨"sleeper", 2, 18446744073709551615, 60, none, 30, 8080⟩
    let begun := opening config .start ((), [])
    let listed := begun.feedWarmImages (.listed (.ok ([], "1")))
    begun.BreaksOff (.warmImages (.listed (.ok ([], "1")))) ∧
      ∀ σ c, Run obligingHost listed σ c →
        c.pool.world.warmImages = listed.pool.world.warmImages := by
  intro config begun listed
  have hr : Run obligingHost begun [(begun, .warmImages (.listed (.ok ([], "1"))))] listed :=
    .next .start (.warmImages _ nofun)
  obtain ⟨-, hbreaks, -, hstays⟩ := breaks_off_exactly hr
  refine ⟨(hbreaks _ _ (.head _)).2 ⟨⟨rfl, [], "1", rfl⟩, by decide⟩, fun σ c hr₂ => ?_⟩
  exact (hstays σ c hr₂).1 (by decide +kernel)

/-- An environment in which a setting of seconds is the largest number that fits a word. -/
def boundless (setting : String) (v : String) : Option String :=
  if v = "WARMIMAGE_SLEEPER_IMAGE" then some "sleeper"
  else if v = setting then some "18446744073709551615"
  else none

/-- The controller runs with as many seconds between two listings as fit a word. Both reflectors
break off with their first listings then, and the workers begin. With as many seconds for the first
listings it breaks off before it waits. -/
theorem accepted_beyond_clock :
    (∃ config, Config.ofEnv (boundless "WARMIMAGE_RESYNC_SECS") = .ok config ∧
      config.validate = .ok config ∧
      ∃ τ c, Run obligingHost (opening config .start ((), [])) τ c ∧ c.stage = .working ∧
        (∃ c' i, (c', .warmImages i) ∈ τ ∧ c'.BreaksOff (.warmImages i)) ∧
        ∃ c' i, (c', .daemonSets i) ∈ τ ∧ c'.BreaksOff (.daemonSets i)) ∧
    ∃ config, Config.ofEnv (boundless "WARMIMAGE_CACHE_SYNC_TIMEOUT_SECS") = .ok config ∧
      config.validate = .ok config ∧
      (opening config .start ((), ([] : List Issue))).stage = .ended .noDeadline := by
  constructor
  · refine ⟨⟨"sleeper", 2, 18446744073709551615, 60, none, 30, 8080⟩, by rfl, by rfl, ?_⟩
    let begun : Controller (Unit × List Issue) :=
      opening ⟨"sleeper", 2, 18446744073709551615, 60, none, 30, 8080⟩ .start ((), [])
    let listed := begun.feedWarmImages (.listed (.ok ([], "1")))
    let listedBoth := listed.feedDaemonSets (.listed (.ok ([], "1")))
    have hlisted : Run obligingHost begun _ listed := .next .start (.warmImages _ nofun)
    have hlistedBoth : Run obligingHost begun _ listedBoth := hlisted.next (.daemonSets _ nofun)
    have hr : Run obligingHost begun _ listedBoth.look := hlistedBoth.next .look
    refine ⟨_, _, hr, by decide +kernel, ⟨begun, _, .head _, ?_⟩, listed, _, .tail _ (.head _), ?_⟩
    · exact ⟨by decide +kernel, by decide +kernel⟩
    · exact ⟨by decide +kernel, by decide +kernel⟩
  · exact ⟨⟨"sleeper", 2, 30, 18446744073709551615, none, 30, 8080⟩, by rfl, by rfl, by rfl⟩

end

end Controller

end Prewarm
