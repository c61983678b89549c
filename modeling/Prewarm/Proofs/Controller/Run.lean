import Prewarm.Controller
import Prewarm.Proofs.Pool.Run
import Prewarm.Proofs.WorkQueue.Pending

/-!
# Runs of the controller

A `Run` of the controller is whatever can happen to it from its beginning on, in any order: its
reflectors get replies, good or bad, it looks at its stores, its time to wait for them is up, it is
told to stop, anything that can run does so whatever its place in the line, time passes, and those
who answer change. Once it was told to stop, the controller and each reflector can take note of that
at any time, but need not do so before they do something else that they can do. To see what its
workers ask of the cluster and of the registries, those who answer take a note of it
(`Host.noting`).
-/

namespace Prewarm

/-- Something that was asked in work on a key. -/
inductive Issue where
  | request (r : Cluster.Request)
  | record (e : Cluster.EventRecord)
  | registry (r : Registry.Request)

/-- Those who answer, with a note of all that they were asked, the first first. -/
def Host.noting {χ : Type} (h : Host χ) : Host (χ × List Issue) where
  reply now r := fun (x, issues) =>
    let (a, x) := h.reply now r x
    (a, x, issues ++ [.request r])
  replyToRecord now e := fun (x, issues) =>
    let (a, x) := h.replyToRecord now e x
    (a, x, issues ++ [.record e])
  replyOfRegistry now r := fun (x, issues) =>
    let (a, x) := h.replyOfRegistry now r x
    (a, x, issues ++ [.registry r])

namespace Controller

/-- Something that happens to a controller. -/
inductive Event where
  /-- Something happens to the reflector of warm images. -/
  | warmImages (i : Reflector.Input WarmImage)
  /-- Something happens to the reflector of daemon sets. -/
  | daemonSets (i : Reflector.Input DaemonSet)
  /-- It looks at its stores. -/
  | look
  /-- The time it waits for its stores is up, and it does not look at them any more. -/
  | expire
  /-- It takes note that it was told to stop. -/
  | heed
  /-- It is told to stop. -/
  | cancel
  /-- It ends if its workers and reflectors have. -/
  | rest
  /-- Something runs that can run. -/
  | work
  /-- Time passes. -/
  | pass
  /-- Those who answer change. -/
  | host

/-- Whether the wait for the stores has its turn in an event. -/
def Event.isTurn : Event → Bool
  | look | expire | heed => true
  | warmImages _ | daemonSets _ | cancel | rest | work | pass | host => false

section
variable {χ : Type}

/-- What was asked in the work of a controller. -/
def issued (c : Controller (χ × List Issue)) : List Issue := c.pool.world.host.2

/-- What an event makes of a controller. -/
inductive Step (h : Host χ) (c : Controller (χ × List Issue)) :
    Event → Controller (χ × List Issue) → Prop
  | warmImages (i : Reflector.Input WarmImage) :
      (i = .stop → c.cancelled = true) → Step h c (.warmImages i) (c.feedWarmImages i)
  | daemonSets (i : Reflector.Input DaemonSet) :
      (i = .stop → c.cancelled = true) → Step h c (.daemonSets i) (c.feedDaemonSets i)
  | look : Step h c .look c.look
  | expire {w : CacheSync} :
      c.stage = .syncing w → w.deadline.reached c.pool.now = true → Step h c .expire c.giveUp
  | heed : c.cancelled = true → Step h c .heed c.heed
  | cancel : Step h c .cancel c.cancel
  | rest : Step h c .rest c.rest
  | work {t : Task Empty} (before after : List (Task Empty)) :
      c.pool.line = before ++ t :: after →
      Step h c .work
        { c with pool := .perform (craft h.noting) { c.pool with line := before ++ after } t }
  | pass {now : Instant} :
      c.pool.now.nanos ≤ now.nanos → Step h c .pass { c with pool := c.pool.moveTo now }
  | host (x : χ) : Step h c .host (c.onWorld fun w => { w with host := (x, w.host.2) })

/-- What has happened to a controller, each event with the controller before it. -/
abbrev History (χ : Type) := List (Controller (χ × List Issue) × Event)

/-- A history of a controller, with the controller it leads to. -/
inductive Run (h : Host χ) (c₀ : Controller (χ × List Issue)) :
    History χ → Controller (χ × List Issue) → Prop
  | start : Run h c₀ [] c₀
  | next {τ : History χ} {c c' : Controller (χ × List Issue)} {e : Event} :
      Run h c₀ τ c → Step h c e c' → Run h c₀ (τ ++ [(c, e)]) c'

theorem Run.trans {h : Host χ} {c₀ c c' : Controller (χ × List Issue)} {τ σ : History χ}
    (hr : Run h c₀ τ c) (hr' : Run h c σ c') : Run h c₀ (τ ++ σ) c' := by
  induction hr' with
  | start => rwa [List.append_nil]
  | next _ hs ih =>
    rw [← List.append_assoc]
    exact ih.next hs

/-- What a pool runs by itself is a run of the controller. -/
theorem Run.settle {h : Host χ} {c₀ c : Controller (χ × List Issue)} {τ : History χ}
    (hr : Run h c₀ τ c) (fuel : Nat) :
    ∃ τ', Run h c₀ τ' { c with pool := c.pool.settle (craft h.noting) fuel } := by
  induction fuel generalizing τ c with
  | zero => exact ⟨τ, hr⟩
  | succ fuel ih =>
    cases hline : c.pool.line with
    | nil => exact ⟨τ, by simpa [Pool.settle, Pool.step?, hline] using hr⟩
    | cons t ts =>
      have hworked := hr.next (.work [] ts hline)
      simpa [Pool.settle, Pool.step?, hline] using ih hworked

/-- Whether a reflector takes a whole listing over in what happens to it, and all of the changes are
put on the queue. -/
def Takes {α : Type} [Resource α] (c : Controller χ) (rule : EnqueueRule) (r : Reflector α)
    (i : Reflector.Input α) : Prop :=
  ∃ as version, i = .listed (.ok (as, version)) ∧ r.phase = .listing ∧
    (c.enqueue (rule.keys (r.takeListing c.pool.now as version).2)).1 = .ok ()

end

/-! ## Reflectors -/

section
variable {χ α : Type} [Resource α] {r : Reflector α} {now : Instant}

/-- A change of a single object does not matter to whether a store has held a whole listing. -/
@[simp] theorem synced_takeChange (r : Reflector α) (c : Change α) :
    (r.takeChange c).1.store.synced = r.store.synced := by
  unfold Reflector.takeChange Store.upsert Store.remove
  cases c with
  | added a | modified a =>
    dsimp only
    split
    · split <;> rfl
    · rfl
  | deleted a =>
    dsimp only
    split <;> rfl
  | bookmark v => rfl

/-- A store holds a whole listing for the first time when its reflector takes one over. -/
theorem synced_step (r : Reflector α) (now : Instant) (i : Reflector.Input α)
    (h : (r.step now i).1.store.synced = true) :
    r.store.synced = true ∨ ∃ as version, i = .listed (.ok (as, version)) ∧ r.phase = .listing ∧
      r.step now i = r.takeListing now as version := by
  obtain hlisted | ⟨c, deadline, heard, -, -, hstep⟩ | ⟨p, d, hstep, -⟩ := r.step_cases now i
  · exact .inr hlisted
  · rw [hstep, synced_takeChange] at h
    exact .inl h
  · rw [hstep] at h
    exact .inl h

@[simp] theorem addAllRateLimited_shuttingDown {L : Type} [Limiter L] (q : WorkQueue L)
    (now : Instant) (ks : List Key) :
    (q.addAllRateLimited now ks).2.shuttingDown = q.shuttingDown := by
  refine WorkQueue.addAllRateLimited_keeps (P := fun q' => q'.shuttingDown = q.shuttingDown) rfl
    now (fun q' k h => ?_) ks
  have hs : (q'.addRateLimited k now).2.shuttingDown = q'.shuttingDown :=
    WorkQueue.Step.shuttingDown_eq (.addRateLimited k) nofun
  exact hs.trans h

/-- What a reflector does changes the reflector and the queue, and does not make the queue shut
down. Its store holds a whole listing only if it did before or takes one over. The reflector breaks
off after its step if its changes could not be put on the queue. -/
theorem feed_spec (c : Controller χ) (rule : EnqueueRule) (r : Reflector α)
    (put : Reflector α → Surroundings χ → Surroundings χ)
    (hput : ∀ a b w, put a (put b w) = put a w) (i : Reflector.Input α) :
    ∃ q r', c.feed rule r put i =
        { c with pool := { ({ c.pool with queue := q } : Pool _ _).gather with
          world := put r' c.pool.world } } ∧
      q.shuttingDown = c.pool.queue.shuttingDown ∧
      (r'.store.synced = true → r.store.synced = true ∨ c.Takes rule r i) ∧
      (r' = (r.step c.pool.now i).1 ∨ r' = (r.step c.pool.now i).1.breakOff r) := by
  have hsynced := synced_step r c.pool.now i
  unfold feed
  obtain ⟨⟨r', notes⟩, hstep⟩ : ∃ s, r.step c.pool.now i = s := ⟨_, rfl⟩
  rw [hstep] at hsynced ⊢
  have hq := addAllRateLimited_shuttingDown c.pool.queue c.pool.now (rule.keys notes)
  obtain ⟨⟨told, q⟩, hres⟩ :
      ∃ res, c.pool.queue.addAllRateLimited c.pool.now (rule.keys notes) = res := ⟨_, rfl⟩
  have henqueue : (c.onWorld (put r')).enqueue (rule.keys notes) =
      (told, { c with pool := { ({ c.pool with queue := q } : Pool _ _).gather with
        world := put r' c.pool.world } }) := by
    unfold enqueue Pool.tryQueue onWorld
    dsimp only
    rw [hres]
    rfl
  rw [hres] at hq
  dsimp only
  rw [henqueue]
  cases told with
  | ok u =>
    refine ⟨q, r', rfl, hq, fun h => (hsynced h).imp_right ?_, .inl rfl⟩
    rintro ⟨as, version, rfl, hphase, hlisted⟩
    refine ⟨as, version, rfl, hphase, ?_⟩
    unfold enqueue Pool.tryQueue
    dsimp only
    rw [← hlisted, hres]
  | error e =>
    refine ⟨q, r'.breakOff r, ?_, hq, fun h => .inl h, .inr rfl⟩
    dsimp only [onWorld]
    rw [hput]

end

end Controller

end Prewarm
