import Prewarm.Proofs.Engine.NoLoss
import Prewarm.Proofs.Pool.Outcomes

/-!
# How long a key waits after a failure

With doubling waits, the wait of a key after failed work is a matter of two counts since the key was
settled last, that is, since work on it ended that is not to be done again: how often work on the
key failed (`failures`), and how many changes of the stores concerned it (`changes`). The limiter
has one count for both, so each change since then doubles the wait as a failure does
(`wait_after_failure`), also if the key was worked on because of the change. So after the first
failure of a key that was added once, the wait is twice the shortest one
(`wait_after_first_failure`).

That a queue shuts down does not matter to what its limiter counts, so the runs here go on beyond
that (`Course`).
-/

namespace Prewarm

namespace WorkQueue

section
variable {base max : Duration} {q : WorkQueue} {k x : Key} {n : Nat} {now : Instant}

/-- The delay of a key that was added a number of times with a doubling wait. -/
theorem delay_eq (hb : Limiter.Becomes (RateLimiter.exponential base max) q.limiter)
    (hmax : max.nanos < Nat.pow 2 64) (hn : q.requeues k = min n Backoff.countLimit) :
    (Limiter.delay k now q.limiter).1 =
      some ⟨min (base.nanos * Nat.pow 2 n) max.nanos⟩ := by
  obtain ⟨counts, hl⟩ := RateLimiter.becomes_exponential hb
  unfold requeues at hn
  rw [hl] at hn ⊢
  have hwait : (Backoff.mk base max counts).wait (min n Backoff.countLimit) =
      ⟨min (base.nanos * Nat.pow 2 n) max.nanos⟩ :=
    (Backoff.wait_min_countLimit _ n).trans (Backoff.wait_eq hmax n)
  rw [← hn] at hwait
  exact congrArg some hwait

/-- An addition counts for its key and for no other. -/
theorem requeues_addRateLimited
    (hb : Limiter.Becomes (RateLimiter.exponential base max) q.limiter) (k x : Key)
    (now : Instant) : (q.addRateLimited k now).2.requeues x =
      if x = k then min (q.requeues k + 1) Backoff.countLimit else q.requeues x := by
  obtain ⟨counts, hl⟩ := RateLimiter.becomes_exponential hb
  have hs : Step now q (.addRateLimited k) (q.addRateLimited k now).2 := .addRateLimited k
  unfold requeues
  rw [hs.limiter_eq, Deed.limit, hl]
  exact Backoff.count_delay ⟨base, max, counts⟩ k x

theorem becomes_addAllRateLimited (q : WorkQueue) (now : Instant) (ks : List Key) :
    Limiter.Becomes q.limiter (q.addAllRateLimited now ks).2.limiter := by
  refine addAllRateLimited_keeps (P := fun q' => Limiter.Becomes q.limiter q'.limiter) .refl now
    (fun q' x h => ?_) ks
  have hs : Step now q' (.addRateLimited x) (q'.addRateLimited x now).2 := .addRateLimited x
  exact h.trans hs.becomes

/-- Additions one after the other count for a key as often as it is among their keys. -/
theorem requeues_addAllRateLimited (ks : List Key)
    (hb : Limiter.Becomes (RateLimiter.exponential base max) q.limiter)
    (hshown : Limiter.ShownUntil now (RateLimiter.exponential base max))
    (hn : q.requeues k = min n Backoff.countLimit) :
    (q.addAllRateLimited now ks).2.requeues k = min (n + ks.count k) Backoff.countLimit := by
  induction ks generalizing q n with
  | nil => exact hn
  | cons x ks ih =>
    have hs : Step now q (.addRateLimited x) (q.addRateLimited x now).2 := .addRateLimited x
    have hb' := hb.trans hs.becomes
    have hok := addRateLimited_ok (RateLimiter.neverFails_exponential base max) hshown hb x
    have hn' : (q.addRateLimited x now).2.requeues k =
        min (n + if x = k then 1 else 0) Backoff.countLimit := by
      rw [requeues_addRateLimited hb x k now]
      by_cases hx : x = k
      · subst hx
        rw [if_pos rfl, if_pos rfl, hn]
        omega
      · rw [if_neg (Ne.symm hx), if_neg hx, hn, Nat.add_zero]
    unfold addAllRateLimited
    split
    · next q' hq =>
      rw [hq] at hb' hn'
      have hnext := ih hb' hn'
      rw [Nat.add_assoc, Nat.add_comm (ite ..)] at hnext
      simpa [List.count_cons] using hnext
    · next hq =>
      rw [hq] at hok
      cases hok

theorem becomes_handBack (q : WorkQueue) (k : Key) (o : Outcome) (now : Instant) :
    Limiter.Becomes q.limiter (q.handBack k o now).2.limiter := by
  unfold handBack
  split
  · have hs : Step now (q.done k) (.addRateLimited k) ((q.done k).addRateLimited k now).2 :=
      .addRateLimited k
    exact done_limiter q k ▸ hs.becomes
  · exact (done_limiter (q.forget k) k).symm ▸ .forget k .refl

/-- To hand a key back counts for it if it is to be worked on again, and for no other key. -/
theorem requeues_handBack_eq
    (hb : Limiter.Becomes (RateLimiter.exponential base max) q.limiter) (k x : Key) (o : Outcome)
    (now : Instant) : (q.handBack k o now).2.requeues x =
      if x = k then (if o.retries then min (q.requeues k + 1) Backoff.countLimit else 0)
      else q.requeues x := by
  by_cases hx : x = k
  · subst hx
    rw [if_pos rfl]
    cases ho : o.retries with
    | false => exact requeues_handBack ho q x now
    | true =>
      have hdone : (q.done x).requeues x = q.requeues x :=
        congrArg (Limiter.count x) (done_limiter q x)
      rw [← done_limiter q x] at hb
      have hcount := requeues_addRateLimited hb x x now
      rw [if_pos rfl, hdone] at hcount
      unfold handBack
      rw [if_pos ho, if_pos rfl]
      exact hcount
  · rw [if_neg hx]
    exact (untouched_handBack hx q o now).requeues

end

end WorkQueue

namespace Engine

section
variable {ω ρ L : Type} {c : Craft ω ρ} {k : Key} {τ evs : List Event} {v : Event}
  {test : Event → Bool}

/-! ## What is seen since a key was settled -/

/-- Whether what is seen is the end of work on a key that is to be done again, or is not. -/
def Event.ends (k : Key) (again : Bool) : Event → Bool
  | .work (.ended _ x o) => x = k && o.retries = again
  | _ => false

/-- The key that a change puts on the queue. -/
def Event.enqueues? : Event → Option Key
  | .warmImage n => Controller.parentRule.key? n
  | .daemonSet n => Controller.childRule.key? n
  | .work _ => none

/-- How often something was seen since work on a key ended last that is not to be done again. -/
def countSince (k : Key) (test : Event → Bool) (τ : List Event) : Nat :=
  τ.foldl (fun n v => if v.ends k false then 0 else if test v then n + 1 else n) 0

/-- How often work on a key ended, since it was settled last, that is to be done again. -/
def failures (k : Key) (τ : List Event) : Nat := countSince k (Event.ends k true) τ

/-- How many changes put a key on the queue since it was settled last. -/
def changes (k : Key) (τ : List Event) : Nat := countSince k (fun v => v.enqueues? == some k) τ

theorem countSince_concat (k : Key) (test : Event → Bool) (τ : List Event) (v : Event) :
    countSince k test (τ ++ [v]) =
      if v.ends k false then 0 else if test v then countSince k test τ + 1
        else countSince k test τ := by
  simp [countSince, List.foldl_append]

theorem countSince_append (h : ∀ v ∈ evs, v.ends k false = false) :
    countSince k test (τ ++ evs) = countSince k test τ + evs.countP test := by
  induction evs generalizing τ with
  | nil => simp
  | cons v evs ih =>
    rw [List.append_cons, ih fun x hx => h x (List.mem_cons_of_mem v hx), countSince_concat,
      h v (.head _), List.countP_cons]
    simp only [Bool.false_eq_true, if_false]
    split <;> omega

/-- What the limiter takes for failures of a key: those, and the changes. -/
def additions (k : Key) (τ : List Event) : Nat := failures k τ + changes k τ

/-- A change counts for the key that it puts on the queue. -/
theorem additions_append_changes {α : Type} [Resource α] {f : Note α → Event} {rule : EnqueueRule}
    (hends : ∀ n b, (f n).ends k b = false) (hkey : ∀ n, (f n).enqueues? = rule.key? n)
    (notes : List (Note α)) :
    additions k (τ ++ notes.map f) = additions k τ + (rule.keys notes).count k := by
  have hopen : ∀ v ∈ notes.map f, v.ends k false = false := fun v hv => by
    obtain ⟨n, -, rfl⟩ := List.mem_map.1 hv
    exact hends n false
  have hfail : (notes.map f).countP (Event.ends k true) = 0 := by
    simp [List.countP_map, Function.comp_def, hends]
  have hchange : (notes.map f).countP (fun v => v.enqueues? == some k) =
      (rule.keys notes).count k := by
    simp [List.countP_map, Function.comp_def, hkey, EnqueueRule.keys, List.count_filterMap]
  unfold additions failures changes
  rw [countSince_append hopen, countSince_append hopen, hfail, hchange]
  omega

/-- That work begins does not count. -/
theorem countSince_append_begun {ds : List Pool.Deed} (hds : ∀ d ∈ ds, ∃ g x, d = .begun g x)
    (htest : ∀ g x, test (.work (.begun g x)) = false) :
    countSince k test (τ ++ ds.map .work) = countSince k test τ := by
  have hbegun : ∀ v ∈ ds.map Event.work, ∃ g x, v = .work (.begun g x) := fun v hv => by
    obtain ⟨d, hd, rfl⟩ := List.mem_map.1 hv
    obtain ⟨g, x, rfl⟩ := hds d hd
    exact ⟨g, x, rfl⟩
  rw [countSince_append fun v hv => by obtain ⟨g, x, rfl⟩ := hbegun v hv; rfl,
    List.countP_eq_zero.2 fun v hv => by obtain ⟨g, x, rfl⟩ := hbegun v hv; simp [htest],
    Nat.add_zero]

theorem additions_append_begun {ds : List Pool.Deed} (hds : ∀ d ∈ ds, ∃ g x, d = .begun g x) :
    additions k (τ ++ ds.map .work) = additions k τ := by
  unfold additions failures changes
  rw [countSince_append_begun hds fun _ _ => rfl, countSince_append_begun hds fun _ _ => rfl]

/-- The end of work on a key counts for it if the work is to be done again, and else settles it. -/
theorem additions_concat_ended (k x : Key) (g : GetterId) (o : Outcome) (τ : List Event) :
    additions k (τ ++ [.work (.ended g x o)]) =
      if k = x then (if o.retries then additions k τ + 1 else 0) else additions k τ := by
  unfold additions failures changes
  rw [countSince_concat, countSince_concat]
  by_cases hx : k = x
  · subst hx
    cases ho : o.retries <;> simp [Event.ends, Event.enqueues?, ho]
    omega
  · simp [Event.ends, Event.enqueues?, Ne.symm hx, hx]

end

section
variable {ω ρ : Type} {c : Craft ω ρ} {k : Key} {τ evs : List Event} {base max : Duration}
  {e₀ e e' : Engine ω ρ RateLimiter} {g : GetterId} {o : Outcome}

/-! ## Runs -/

/-- What is seen of an engine, also after its queue was told to shut down, with the engine it leads
to. -/
inductive Course (c : Craft ω ρ) (e₀ : Engine ω ρ RateLimiter) :
    List Event → Engine ω ρ RateLimiter → Prop
  | start : Course c e₀ [] e₀
  | next {τ evs : List Event} {e e' : Engine ω ρ RateLimiter} :
      Course c e₀ τ e → Step c e evs e' → Course c e₀ (τ ++ evs) e'
  | shutDown {τ : List Event} {e : Engine ω ρ RateLimiter} :
      Course c e₀ τ e → Course c e₀ τ { e with pool := e.pool.onQueue (·.shutDown) }

theorem Run.course (h : Run c e₀ τ e) : Course c e₀ τ e := by
  induction h with
  | start => exact .start
  | next _ hs ih => exact ih.next hs

/-- The limiter counts for each key what was seen of it. -/
structure Tallied (base max : Duration) (τ : List Event) (e : Engine ω ρ RateLimiter) : Prop where
  becomes : Limiter.Becomes (RateLimiter.exponential base max) e.pool.queue.limiter
  requeues : ∀ k, e.pool.queue.requeues k = min (additions k τ) Backoff.countLimit

theorem Tallied.congr {τ' : List Event} (h : Tallied base max τ e)
    (hl : e'.pool.queue.limiter = e.pool.queue.limiter)
    (hτ : ∀ k, additions k τ' = additions k τ) : Tallied base max τ' e' :=
  ⟨hl ▸ h.becomes, fun k => by rw [hτ, ← h.requeues, WorkQueue.requeues, hl, WorkQueue.requeues]⟩

section
variable (ht : Limiter.ShownUntil e.pool.now (RateLimiter.exponential base max))
include ht

theorem Tallied.enqueue (h : Tallied base max τ e) {ks : List Key}
    (hτ : ∀ k, additions k (τ ++ evs) = additions k τ + ks.count k) :
    Tallied base max (τ ++ evs) (e.enqueue ks) := by
  refine ⟨h.becomes.trans (WorkQueue.becomes_addAllRateLimited ..), fun k => ?_⟩
  rw [hτ]
  exact WorkQueue.requeues_addAllRateLimited ks h.becomes ht (h.requeues k)

/-- One who hands a key back counts for it as the end of the work does. -/
theorem Tallied.finish (h : Tallied base max τ e) (hg : e.pool.worksOn? g = some k) :
    Tallied base max
      (τ ++ (e.pool.deeds (Pool.finish c e.pool g o) (.finish g o)).map .work)
      { e with pool := Pool.finish c e.pool g o } := by
  have hok := WorkQueue.handBack_ok (RateLimiter.neverFails_exponential base max) ht h.becomes k o
  have hlimiter : (Pool.finish c e.pool g o).queue.limiter =
      (e.pool.queue.handBack k o e.pool.now).2.limiter := by
    rcases Pool.finish_queue c hg hok with hq | hq <;> rw [hq]
    exact WorkQueue.ask_limiter _ g
  have hback : Tallied base max (τ ++ [.work (.ended g k o)])
      { e with pool := { e.pool with queue := (e.pool.queue.handBack k o e.pool.now).2 } } := by
    refine ⟨h.becomes.trans (WorkQueue.becomes_handBack ..), fun x => ?_⟩
    rw [additions_concat_ended]
    refine (WorkQueue.requeues_handBack_eq h.becomes k x o e.pool.now).trans ?_
    rw [h.requeues, h.requeues]
    split
    · next hx =>
      subst hx
      cases o.retries with
      | false => rfl
      | true => simp only [if_true]; omega
    · rfl
  refine hback.congr hlimiter fun x => ?_
  simp only [Pool.deeds, hg, List.map_cons]
  rw [List.append_cons]
  refine additions_append_begun fun d hd => ?_
  obtain ⟨y, -, rfl⟩ := List.mem_map.1 hd
  exact ⟨g, y, rfl⟩

/-- Every task keeps the tally. -/
theorem Tallied.perform (h : Tallied base max τ e) (t : Task ρ) :
    Tallied base max (τ ++ (e.pool.deeds (Pool.perform c e.pool t) t).map .work)
      { e with pool := Pool.perform c e.pool t } := by
  by_cases hidle : ∀ g o, t = .finish g o → e.pool.worksOn? g = none
  · obtain ⟨hl, hds⟩ := Pool.perform_limiter c hidle
    exact h.congr hl fun k => additions_append_begun hds
  · simp only [not_forall] at hidle
    obtain ⟨g, o, rfl, hk⟩ := hidle
    obtain ⟨k, hk⟩ := Option.ne_none_iff_exists'.1 hk
    exact h.finish ht hk

/-- Everything that happens to an engine keeps the tally. -/
theorem Tallied.step (h : Tallied base max τ e) (hs : Step c e evs e') :
    Tallied base max (τ ++ evs) e' := by
  cases hs with
  | writeWarmImages w =>
    refine Tallied.enqueue (e := { e with warmImages := (e.warmImages.write w).1 }) ht
      ⟨h.becomes, h.requeues⟩ fun k => ?_
    exact additions_append_changes (fun _ _ => rfl) (fun _ => rfl) _
  | writeDaemonSets w =>
    refine Tallied.enqueue (e := { e with daemonSets := (e.daemonSets.write w).1 }) ht
      ⟨h.becomes, h.requeues⟩ fun k => ?_
    exact additions_append_changes (fun _ _ => rfl) (fun _ => rfl) _
  | @perform t before after p _ hp =>
    subst hp
    exact Tallied.perform (e := { e with pool := { e.pool with line := before ++ after } }) ht
      ⟨h.becomes, h.requeues⟩ t
  | join | pass | world =>
    rw [List.append_nil]
    exact h.congr rfl fun _ => rfl

end

theorem tallied_opening (base max : Duration) (now : Instant) (w : ω) :
    Tallied base max []
      (opening now (RateLimiter.exponential base max) w : Engine ω ρ RateLimiter) :=
  ⟨.refl, fun _ => rfl⟩

/-- In every run the limiter counts what was seen, if the clock can show the longest wait. -/
theorem Course.tallied {now : Instant} {w : ω}
    (h : Course c (opening now (RateLimiter.exponential base max) w) τ e)
    (ht : Limiter.ShownUntil e.pool.now (RateLimiter.exponential base max)) :
    Tallied base max τ e := by
  induction h with
  | start => exact tallied_opening base max now w
  | next _ hs ih =>
    have ht' := ht.mono hs.now_le
    exact (ih ht').step ht' hs
  | @shutDown τ e _ ih =>
    exact (ih ht).congr (WorkQueue.shutDown_limiter e.pool.queue) fun _ => rfl

/-- **What the wait after a failure depends on.** In every run of the engine with doubling waits,
the longest of which fits a word, also after the queue was told to shut down: when work on a key has
ended that is to be done again, the key is handed back to be added after a wait, which is the
shortest one doubled once for each time that such work on the key has ended before, and once more
for each change that has put the key on the queue, both since the key was settled last, but is no
longer than the longest. The clock has to be able to show the end of the longest wait. -/
theorem wait_after_failure {now : Instant} {w : ω} (hmax : max.nanos < Nat.pow 2 64)
    (hclock : (e.pool.now.nanos + max.nanos) / 1_000_000_000 < Instant.horizon)
    (h : Course c (opening now (RateLimiter.exponential base max) w) τ e) (hs : Step c e evs e')
    (hend : .work (.ended g k o) ∈ evs) (ho : o.retries = true) :
    let d : Duration :=
      ⟨min (base.nanos * Nat.pow 2 (failures k τ + changes k τ)) max.nanos⟩
    let q := e.pool.queue.done k
    ∃ q' l, e.pool.queue.handBack k o e.pool.now = (.ok (), q') ∧
      (e'.pool.queue = q' ∨ e'.pool.queue = (q'.ask g).2) ∧
      Limiter.delay k e.pool.now q.limiter = (some d, l) ∧
      q' = ({ q with limiter := l }.addAfter k e.pool.now d).2 := by
  intro d q
  have ht : Limiter.ShownUntil e.pool.now (RateLimiter.exponential base max) :=
    RateLimiter.shownUntil_exponential hclock
  have htally := h.tallied ht
  have hok := WorkQueue.handBack_ok (RateLimiter.neverFails_exponential base max) ht
    htally.becomes k o
  have hd : (Limiter.delay k e.pool.now q.limiter).1 = some d := by
    rw [WorkQueue.done_limiter]
    exact WorkQueue.delay_eq htally.becomes hmax (htally.requeues k)
  have hback : e.pool.queue.handBack k o e.pool.now =
      { q with limiter := (Limiter.delay k e.pool.now q.limiter).2 }.addAfter k e.pool.now d := by
    unfold WorkQueue.handBack
    rw [if_pos ho]
    rcases WorkQueue.addRateLimited_cases q k e.pool.now with ⟨l, hl, -⟩ | ⟨d', l, hl, he⟩
    · rw [hl] at hd
      cases hd
    · rw [hl] at hd ⊢
      cases hd
      exact he
  refine ⟨_, _, Prod.ext hok rfl, ?_, Prod.ext hd rfl, congrArg Prod.snd hback⟩
  cases hs with
  | writeWarmImages | writeDaemonSets =>
    obtain ⟨n, -, he⟩ := List.mem_map.1 hend
    cases he
  | @perform t before after p _ hp =>
    obtain ⟨x, hx, he⟩ := List.mem_map.1 hend
    cases he
    obtain ⟨rfl, hg⟩ := Pool.of_mem_deeds_ended hx
    subst hp
    exact Pool.finish_queue (p := { e.pool with line := before ++ after }) c hg hok
  | join | pass | world => cases hend

end

deriving instance DecidableEq for Task

/-- Work that breaks off at once. -/
def breaking : Craft Unit Empty := ⟨fun _ _ w => (.ended .crash, w), nofun, fun _ _ _ w => w⟩

/-- The engine after the one task in line has run. -/
def runOnly (e : Engine Unit Empty RateLimiter) (t : Task Empty) : Engine Unit Empty RateLimiter :=
  { e with pool := Pool.perform breaking { e.pool with line := [] } t }

theorem step_runOnly (e : Engine Unit Empty RateLimiter) (t : Task Empty) (ds : List Pool.Deed)
    (hline : e.pool.line = [t]) (hds : e.pool.deeds (runOnly e t).pool t = ds) :
    Step breaking e (ds.map .work) (runOnly e t) :=
  hds ▸ .perform [] [] hline rfl

/-- A warm image that is added. -/
def newcomer : WarmImage := { metadata := { name := some "a", ns := some "ns" }, image := "nginx" }

/-- With waits from 5 milliseconds to 1000 seconds, a warm image is added at the start. Its key is
put on the queue when the wait is over, and work on it breaks off for the first time. -/
theorem exists_brokenOff : ∃ e e' : Engine Unit Empty RateLimiter,
    Run breaking (opening .start (.exponential (.ofMillis 5) (.ofSeconds 1000)) ())
      [.warmImage (.added newcomer), .work (.begun 0 "ns/a")] e ∧
    Step breaking e [.work (.ended 0 "ns/a" .crash)] e' ∧ e.pool.now = .ofMillis 5 ∧
    (Limiter.delay "ns/a" e.pool.now (e.pool.queue.done "ns/a").limiter).1 = some (.ofMillis 10) ∧
    e'.pool.queue.waiting.get? "ns/a" = some (.ofMillis 15) := by
  let l := RateLimiter.exponential (.ofMillis 5) (.ofSeconds 1000)
  let e₁ := (opening .start l () : Engine Unit Empty RateLimiter).writeWarmImages (.upsert newcomer)
  let e₂ := { e₁ with pool := e₁.pool.moveTo (.ofMillis 5) }
  let e₃ := runOnly e₂ .timer
  let e₄ := { e₃ with pool := (e₃.pool.join .worker).2 }
  let e₅ := runOnly e₄ (.ask 0)
  let e := runOnly e₅ (.start 0 "ns/a")
  let e' := runOnly e (.finish 0 .crash)
  have h₁ : Run breaking (opening .start l ()) [.warmImage (.added newcomer)] e₁ :=
    .next .start (.writeWarmImages (.upsert newcomer))
  have h₃ : Run breaking (opening .start l ()) [.warmImage (.added newcomer)] e₃ :=
    .next (.next h₁ (.pass (by decide))) (step_runOnly e₂ .timer [] (by decide +kernel) rfl)
  have hjoin : Step breaking e₃ [] e₄ := .join nofun
  have hask : Step breaking e₄ [.work (.begun 0 "ns/a")] e₅ :=
    step_runOnly e₄ (.ask 0) [.begun 0 "ns/a"] (by decide +kernel) (by decide +kernel)
  have hstart : Step breaking e₅ [] e :=
    step_runOnly e₅ (.start 0 "ns/a") [] (by decide +kernel) rfl
  have hfinish : Step breaking e [.work (.ended 0 "ns/a" .crash)] e' :=
    step_runOnly e (.finish 0 .crash) [.ended 0 "ns/a" .crash] (by decide +kernel)
      (by decide +kernel)
  exact ⟨e, e', .next (.next (.next h₃ hjoin) hask) hstart, hfinish, by decide +kernel,
    by decide +kernel, by decide +kernel⟩

/-- The limiter has counted one addition when work on a new warm image breaks off for the first
time, so the key waits for 10 milliseconds. -/
theorem wait_after_failure_new : ∃ (e e' : Engine Unit Empty RateLimiter) (q' : WorkQueue) (l : _),
    Run breaking (opening .start (.exponential (.ofMillis 5) (.ofSeconds 1000)) ())
      [.warmImage (.added newcomer), .work (.begun 0 "ns/a")] e ∧
    e.pool.queue.handBack "ns/a" .crash e.pool.now = (.ok (), q') ∧
    (e'.pool.queue = q' ∨ e'.pool.queue = (q'.ask 0).2) ∧
    Limiter.delay "ns/a" e.pool.now (e.pool.queue.done "ns/a").limiter =
      (some (.ofMillis 10), l) := by
  obtain ⟨e, e', h, hs, hnow, -, -⟩ := exists_brokenOff
  have hclock : (e.pool.now.nanos + (Duration.ofSeconds 1000).nanos) / 1_000_000_000 <
      Instant.horizon := by
    rw [hnow]
    decide
  obtain ⟨q', l, hback, hq, hdelay, -⟩ :=
    wait_after_failure (by decide) hclock h.course hs (.head _) rfl
  exact ⟨e, e', q', l, h, hback, hq, hdelay⟩

/-- The wait after the first failure is the double of the shortest one, since the addition of the
warm image counts like a failure. -/
theorem wait_after_first_failure : ∃ (τ evs : List Event) (e e' : Engine Unit Empty RateLimiter),
    Run breaking (opening .start (.exponential (.ofMillis 5) (.ofSeconds 1000)) ()) τ e ∧
    Step breaking e evs e' ∧ .work (.ended 0 "ns/a" .crash) ∈ evs ∧ failures "ns/a" τ = 0 ∧
    (Limiter.delay "ns/a" e.pool.now (e.pool.queue.done "ns/a").limiter).1 ≠
      some ⟨min ((Duration.ofMillis 5).nanos * Nat.pow 2 0) (Duration.ofSeconds 1000).nanos⟩ ∧
    e'.pool.queue.waiting.get? "ns/a" ≠ some ⟨e.pool.now.nanos + (Duration.ofMillis 5).nanos⟩ := by
  obtain ⟨e, e', h, hs, hnow, hdelay, hwaiting⟩ := exists_brokenOff
  refine ⟨_, _, e, e', h, hs, .head _, by decide, ?_, ?_⟩
  · rw [hdelay]
    decide
  · rw [hwaiting, hnow]
    decide

end Engine

end Prewarm
