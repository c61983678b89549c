import Prewarm.Proofs.Engine.Run
import Prewarm.Proofs.Pool.Kept

/-!
# No change is lost

From a change of a store to work on the key that it concerns: when the change is seen its key is
pending (`Step.pending`), and from then on the key is kept track of, whatever happens, until work
that began after the change has been done (`no_change_lost`). The limiter may be any that does not
fail and whose delays the clock can show; with one whose delays it cannot show, a key is lost
(`change_lost_beyond_clock`).
-/

namespace Prewarm.Engine

section
variable {ω ρ L : Type} [Limiter L] {c : Craft ω ρ} {l : L} {e₀ e e' : Engine ω ρ L} {k : Key}
  {τ evs : List Event} {v : Event}

/-- Whether what is seen is a change that concerns the object with a key: an addition or an update
of the warm image with this key, or any change of a daemon set that this warm image manages. -/
def Event.Concerns (k : Key) : Event → Prop
  | .warmImage (.added a) | .warmImage (.updated _ a) => keyOf a = k
  | .daemonSet n => ∃ r, EnqueueRule.managerOf? "WarmImage" (metadata n.object) = some r ∧
      Key.ofParts ((metadata n.object).ns.getD "") r.name = k
  | _ => False

/-- The rules of the controller take up every change that concerns a key. -/
theorem mem_parentRule_keys {notes : List (Note WarmImage)} {n : Note WarmImage} (hn : n ∈ notes)
    (hk : Event.Concerns k (.warmImage n)) : k ∈ Controller.parentRule.keys notes := by
  refine List.mem_filterMap.2 ⟨n, hn, ?_⟩
  cases n with
  | added a | updated old a => exact congrArg some hk
  | deleted a => exact hk.elim

theorem mem_childRule_keys {notes : List (Note DaemonSet)} {n : Note DaemonSet} (hn : n ∈ notes)
    (hk : Event.Concerns k (.daemonSet n)) : k ∈ Controller.childRule.keys notes := by
  obtain ⟨r, hr, hk⟩ := hk
  refine List.mem_filterMap.2 ⟨n, hn, ?_⟩
  have hkey : Controller.childRule.key? n =
      (EnqueueRule.managerOf? "WarmImage" (metadata n.object)).map
        (fun r => Key.ofParts ((metadata n.object).ns.getD "") r.name) := rfl
  rw [hkey, hr]
  exact congrArg some hk

/-! ## Steps -/

@[simp] theorem deeds_append (τ evs : List Event) : deeds (τ ++ evs) = deeds τ ++ deeds evs :=
  List.filterMap_append

@[simp] theorem deeds_map_work (ds : List Pool.Deed) : deeds (ds.map .work) = ds :=
  List.filterMap_map.trans (List.filterMap_some ..)

/-- Nothing is seen of the work on keys in changes of a store. -/
theorem deeds_map_of_not_work {α : Type} {f : α → Event} (hf : ∀ a d, f a ≠ .work d) (as : List α) :
    deeds (as.map f) = [] := by
  refine List.filterMap_eq_nil_iff.2 fun v hv => ?_
  obtain ⟨a, -, rfl⟩ := List.mem_map.1 hv
  split
  · next d hd => exact absurd hd (hf a d)
  · rfl

/-- Time does not go back. -/
theorem Step.now_le (h : Step c e evs e') : e.pool.now.nanos ≤ e'.pool.now.nanos := by
  cases h with
  | writeWarmImages | writeDaemonSets | join | world => exact Nat.le_refl _
  | perform _ _ _ hp =>
    refine Nat.le_of_eq (congrArg Instant.nanos (Eq.symm ?_))
    rw [hp]
    exact Pool.perform_now ..
  | pass hnow => exact hnow

section
variable (hs : Pool.Sound l e.pool) (hl : Limiter.NeverFails l)
  (ht : Limiter.ShownUntil e.pool.now l)
include hs hl ht

theorem Step.sound (h : Step c e evs e') : Pool.Sound l e'.pool := by
  cases h with
  | writeWarmImages w => exact hs.tryQueue _
  | writeDaemonSets w => exact hs.tryQueue _
  | @perform t before after p _ hp =>
    have hs' : Pool.Sound l { e.pool with line := before ++ after } := ⟨hs.takes, hs.named⟩
    rw [hp]
    exact hs'.perform hl ht t
  | join hr => exact hs.join hr
  | pass _ => exact hs.moveTo
  | world w => exact ⟨hs.takes, hs.named⟩

/-- The key that a change concerns is pending when the change is seen. -/
theorem Step.pending (h : Step c e evs e') (hv : v ∈ evs) (hk : v.Concerns k) :
    e'.pool.queue.Pending k := by
  cases h with
  | writeWarmImages w =>
    obtain ⟨n, hn, rfl⟩ := List.mem_map.1 hv
    exact hs.takes.pending_addAllRateLimited hl ht (mem_parentRule_keys hn hk)
  | writeDaemonSets w =>
    obtain ⟨n, hn, rfl⟩ := List.mem_map.1 hv
    exact hs.takes.pending_addAllRateLimited hl ht (mem_childRule_keys hn hk)
  | perform =>
    obtain ⟨d, -, rfl⟩ := List.mem_map.1 hv
    exact hk.elim
  | join | pass | world => cases hv

/-- A key that is kept track of is kept track of after a step. -/
theorem Step.kept {δ : List Pool.Deed} (h : Step c e evs e') (hk : Pool.Kept δ e.pool k) :
    Pool.Kept (δ ++ deeds evs) e'.pool k := by
  cases h with
  | writeWarmImages w | writeDaemonSets w =>
    rw [deeds_map_of_not_work (by simp), List.append_nil]
    exact hk.congr (fun hk => hk.addAllRateLimited _) fun _ => id
  | @perform t before after p _ hp =>
    have hs' : Pool.Sound l { e.pool with line := before ++ after } := ⟨hs.takes, hs.named⟩
    have hk' : Pool.Kept δ { e.pool with line := before ++ after } k := hk
    rw [deeds_map_work, hp]
    exact hk'.perform hs' hl ht t
  | join hr =>
    rw [deeds, List.filterMap_nil, List.append_nil]
    exact hk.join hs
  | pass _ | world w =>
    rw [deeds, List.filterMap_nil, List.append_nil]
    exact hk.congr id fun _ => id

end

/-! ## Runs -/

/-- What every run keeps, as long as delays do not fail. -/
theorem Run.sound (hs : Pool.Sound l e₀.pool) (hl : Limiter.NeverFails l) (h : Run c e₀ τ e)
    (ht : Limiter.ShownUntil e.pool.now l) : Pool.Sound l e.pool := by
  induction h with
  | start => exact hs
  | next _ hstep ih =>
    have ht' := ht.mono hstep.now_le
    exact hstep.sound (ih ht') hl ht'

/-- From the moment a change is seen, the key that it concerns is kept track of. -/
theorem Run.kept (hs : Pool.Sound l e₀.pool) (hl : Limiter.NeverFails l) {τ' : List Event}
    (h : Run c e₀ (τ ++ v :: τ') e) (ht : Limiter.ShownUntil e.pool.now l) (hk : v.Concerns k) :
    Pool.Kept (deeds τ') e.pool k := by
  generalize hσ : τ ++ v :: τ' = σ at h
  induction h generalizing τ' with
  | start => simp at hσ
  | @next σ evs e e' hrun hstep ih =>
    have ht' := ht.mono hstep.now_le
    have hs' := hrun.sound hs hl ht'
    rcases List.append_eq_append_iff.1 hσ with ⟨seen, rfl, hseen⟩ | ⟨seen, -, rfl⟩
    · cases seen with
      | nil =>
        rw [List.nil_append] at hseen
        exact .inl (hstep.pending hs' hl ht' (hseen ▸ .head _) hk)
      | cons v' seen =>
        -- the change was seen in an earlier step
        rw [List.cons_append] at hseen
        obtain ⟨rfl, rfl⟩ := List.cons.inj hseen
        rw [deeds_append]
        exact hstep.kept hs' hl ht' (ih ht' rfl)
    · exact .inl (hstep.pending hs' hl ht' (List.mem_append_right _ (.head _)) hk)

/-- Whatever happens in a run, a change that concerns a key is not lost: until work on the key that
began after the change has been done, the key is dirty, waits for its delay, or is being worked on
by someone who began after the change. -/
theorem no_change_lost {now : Instant} {w : ω} {τ' : List Event}
    (hl : Limiter.NeverFails l) (ht : Limiter.ShownUntil e.pool.now l)
    (h : Run c (opening now l w) (τ ++ v :: τ') e) (hk : v.Concerns k) :
    k ∈ e.pool.queue.dirty ∨ (e.pool.queue.waiting.get? k).isSome ∨
      Pool.InFlight (deeds τ') e.pool k ∨ Pool.Served (deeds τ') k := by
  have hs : Pool.Sound l (opening now l w : Engine ω ρ L).pool :=
    ⟨WorkQueue.takes_withLimiter _ l, fun g t hg => by cases hg⟩
  exact or_assoc.1 (h.kept hs hl ht hk)

end

/-- A warm image is updated while a worker works on its key, which is dirty until the work has
ended. -/
theorem no_change_lost_updated :
    let l := RateLimiter.exponential .zero (.ofSeconds 1000)
    let a : WarmImage := { metadata := { name := some "a", ns := some "ns" }, image := "nginx" }
    let c : Craft Unit Empty := ⟨fun _ _ w => (.ended .success, w), nofun, fun _ _ _ w => w⟩
    ∃ e : Engine Unit Empty RateLimiter,
      Run c (opening .start l ())
        [.warmImage (.added a), .work (.begun 0 "ns/a"), .warmImage (.updated a a)] e ∧
      ("ns/a" ∈ e.pool.queue.dirty ∨ (e.pool.queue.waiting.get? "ns/a").isSome ∨
        Pool.InFlight [] e.pool "ns/a" ∨ Pool.Served [] "ns/a") := by
  intro l a c
  let e₁ := (opening .start l () : Engine Unit Empty RateLimiter).writeWarmImages (.upsert a)
  let e₂ := { e₁ with pool := (e₁.pool.join .worker).2 }
  let e₃ := { e₂ with pool := Pool.perform c { e₂.pool with line := [] } (.ask 0) }
  have h₁ : Run c (opening .start l ()) [.warmImage (.added a)] e₁ :=
    .next .start (.writeWarmImages (.upsert a))
  have h₂ : Run c (opening .start l ()) [.warmImage (.added a)] e₂ := .next h₁ (.join nofun)
  have h₃ : Run c (opening .start l ()) [.warmImage (.added a), .work (.begun 0 "ns/a")] e₃ :=
    .next h₂ (.perform (t := .ask 0) [] [] (by unfold e₂ e₁ a l; rfl) rfl)
  have h₄ : Run c (opening .start l ()) [.warmImage (.added a), .work (.begun 0 "ns/a"),
      .warmImage (.updated a a)] (e₃.writeWarmImages (.upsert a)) :=
    .next h₃ (.writeWarmImages (.upsert a))
  refine ⟨_, h₄, ?_⟩
  exact no_change_lost (τ := [_, _]) (RateLimiter.neverFails_exponential _ _)
    (RateLimiter.shownUntil_exponential (by decide)) h₄ rfl

/-- A limiter never fails, but the clock cannot show the end of its delay. So the first addition of
a warm image puts its key nowhere, and no one works on it. -/
theorem change_lost_beyond_clock :
    let l := RateLimiter.exponential (.ofSeconds (Nat.pow 2 64 - 1)) (.ofSeconds (Nat.pow 2 63))
    let a : WarmImage := { metadata := { name := some "a", ns := some "ns" }, image := "nginx" }
    let c : Craft Unit Empty := ⟨fun _ _ w => (.ended .success, w), nofun, fun _ _ _ w => w⟩
    let e := (opening .start l () : Engine Unit Empty RateLimiter).writeWarmImages (.upsert a)
    Limiter.NeverFails l ∧ Run c (opening .start l ()) [.warmImage (.added a)] e ∧
      Event.Concerns "ns/a" (.warmImage (.added a)) ∧
      ¬ ("ns/a" ∈ e.pool.queue.dirty ∨ (e.pool.queue.waiting.get? "ns/a").isSome ∨
        Pool.InFlight [] e.pool "ns/a" ∨ Pool.Served [] "ns/a") := by
  intro l a c e
  have hrun : Run c (opening .start l ()) [.warmImage (.added a)] e :=
    .next .start (.writeWarmImages (.upsert a))
  have hdirty : e.pool.queue.dirty = [] := by unfold e a l; rfl
  have hwaiting : e.pool.queue.waiting.get? "ns/a" = none := by unfold e a l; rfl
  refine ⟨RateLimiter.neverFails_exponential _ _, hrun, rfl, ?_⟩
  rintro (h | h | ⟨g, τ₁, τ₂, h, -⟩ | ⟨g, o, τ₁, τ₂, τ₃, h, -⟩)
  · rw [hdirty] at h
    cases h
  · rw [hwaiting] at h
    cases h
  · simp at h
  · simp at h

end Prewarm.Engine
