import Prewarm.Proofs.Pool.Run

/-!
# No one who asks is forgotten

One who asks for a key stands in line for that or is asleep, and nobody else is asleep or called.
Whoever was called stands in line, and so does each run of the timer that is ready. A pool is
`Attentive` if all of this holds. It is so when it begins, and stays so whatever happens
(`Run.attentive`).

A call moves one from those asleep to those who were called, and what a pool gathers after each step
moves them to the line. So what matters of the wake-ups of a queue is who waits for a key, asleep or
called (`Wakeups.Waits`): only one who asks begins or ends that.
-/

namespace Prewarm

/-! ## Those who wait for a key -/

/-- Whether one has asked for a key and got no answer yet: it is asleep, or was called and has not
run since. -/
def Wakeups.Waits (w : Wakeups) (g : GetterId) : Prop := g ∈ w.asleep ∨ g ∈ w.woken.map Prod.fst

namespace Wakeups

variable {w : Wakeups} {g x : GetterId}

/-- One who is called still waits: it has not run yet. -/
@[simp] theorem waits_callOne : w.callOne.Waits g ↔ w.Waits g := by
  unfold callOne Waits
  split
  · exact .rfl
  · next h =>
    rw [h]
    simp only [List.map_append, List.map_cons, List.map_nil, List.mem_append, List.mem_cons,
      List.not_mem_nil, or_false]
    grind

/-- Those who are called still wait: they have not run yet. -/
@[simp] theorem waits_callAll : w.callAll.Waits g ↔ w.Waits g := by
  unfold callAll Waits
  simp only [List.map_append, List.map_map, List.mem_append, Function.comp_def, List.map_id',
    List.not_mem_nil, false_or]
  exact or_comm

/-- One who runs does not wait any more, and the others are left as they are. -/
@[simp] theorem waits_run : (w.run x).Waits g ↔ g ≠ x ∧ w.Waits g := by
  simp only [run, Waits, List.mem_filter, List.mem_map, decide_eq_true_eq]
  constructor
  · rintro (⟨h, hne⟩ | ⟨e, ⟨he, hne⟩, rfl⟩)
    · exact ⟨hne, .inl h⟩
    · exact ⟨hne, .inr ⟨e, he, rfl⟩⟩
  · rintro ⟨hne, h | ⟨e, he, rfl⟩⟩
    · exact .inl ⟨h, hne⟩
    · exact .inr ⟨e, ⟨he, hne⟩, rfl⟩

/-- One who leaves does not wait any more, and the others are left as they are. -/
@[simp] theorem waits_leave : (w.leave x).Waits g ↔ g ≠ x ∧ w.Waits g := by
  have hrest : ({ w with
      asleep := w.asleep.filter (· ≠ x)
      woken := w.woken.filter (·.1 ≠ x) } : Wakeups).Waits g ↔ g ≠ x ∧ w.Waits g := waits_run
  unfold leave
  dsimp only
  split
  · exact waits_callOne.trans hrest
  · exact hrest

/-- One who falls asleep waits, and the others are left as they are. -/
@[simp] theorem waits_sleep : (w.sleep x).Waits g ↔ g = x ∨ w.Waits g := by
  simp only [sleep, Waits, List.mem_append, List.mem_singleton]
  grind

end Wakeups

/-- The one who asks for a key, or stops asking, by a deed. -/
def WorkQueue.Deed.getter? : WorkQueue.Deed → Option GetterId
  | handOut g _ | turnAway g | leave g => some g
  | _ => none

namespace WorkQueue

section
variable {L : Type} {q q' : WorkQueue L} {now : Instant} {e : Deed} {g : GetterId} {k : Key}

/-- A key that is added calls someone, but lets no one go. -/
@[simp] theorem waits_add : (q.add k).getters.Waits g ↔ q.getters.Waits g := by
  rcases add_cases q k with ⟨-, h⟩ | ⟨-, -, -, h⟩ | ⟨-, -, -, h⟩ <;> rw [h]
  exact Wakeups.waits_callOne

/-- Keys that are added let no one go. -/
@[simp] theorem waits_foldl_add (ks : List Key) :
    (ks.foldl add q).getters.Waits g ↔ q.getters.Waits g := by
  induction ks generalizing q with
  | nil => exact .rfl
  | cons k ks ih => exact ih.trans waits_add

/-- A key that is added after a delay lets no one go. -/
@[simp] theorem waits_addAfter {d : Duration} :
    (q.addAfter k now d).2.getters.Waits g ↔ q.getters.Waits g := by
  rcases addAfter_cases q k now d with ⟨-, h⟩ | ⟨-, -, h⟩ | ⟨-, t, -, h⟩ <;> rw [h]
  · exact waits_add
  · rcases addAt_cases q k t with ⟨-, h⟩ | ⟨-, -, w, ts, b, -, h⟩ <;> rw [h]

/-- One who asks runs, and falls asleep if there is no answer yet. -/
theorem ask_getters (q : WorkQueue L) (g : GetterId) :
    (q.ask g).2.getters = match (q.ask g).1 with
      | .asleep => (q.getters.run g).sleep g
      | _ => q.getters.run g := by
  rcases ask_cases q g with ⟨-, h⟩ | ⟨-, -, h⟩ | ⟨-, k, ks, -, h⟩ <;> rw [h]

variable [Limiter L]

/-- Who waits for a key is decided by those who ask, and by no one else. -/
theorem Step.waits_iff (hs : Step now q e q') (he : e.getter? = none) :
    q'.getters.Waits g ↔ q.getters.Waits g := by
  cases hs with
  | add k => exact waits_add
  | addAfter k d => exact waits_addAfter
  | addRateLimited k =>
    rcases addRateLimited_cases q k now with ⟨l, -, h⟩ | ⟨d, l, -, h⟩ <;> rw [h]
    exact waits_addAfter
  | handOut | turnAway | leave => cases he
  | done k =>
    rcases done_cases q k with ⟨-, h⟩ | ⟨-, h⟩ <;> rw [h]
    exact Wakeups.waits_callOne
  | shutDown =>
    rw [shutDown_getters]
    exact Wakeups.waits_callAll
  | fire =>
    rcases runTimer_cases q now with h | ⟨-, ts, h⟩ | ⟨-, ts, r, b, h⟩ <;> rw [h]
    exact waits_foldl_add _
  | forget | tick => exact .rfl

/-- A key that is handed back lets no one go. -/
@[simp] theorem waits_handBack {o : Outcome} :
    (q.handBack k o now).2.getters.Waits g ↔ q.getters.Waits g := by
  have hdone : ∀ q : WorkQueue L, (q.done k).getters.Waits g ↔ q.getters.Waits g := fun q =>
    have hs : Step now q (.done k) (q.done k) := .done k
    hs.waits_iff rfl
  unfold handBack
  split
  · exact (Step.waits_iff (.addRateLimited k) rfl).trans (hdone q)
  · exact hdone (q.forget k)

end

end WorkQueue

namespace Pool

section
variable {ω ρ L : Type} {c : Craft ω ρ} {p p' : Pool ω ρ L} {g x : GetterId} {k : Key}
  {r : Role} {o : Outcome}

/-- Whether one asks for a key. -/
def Asks (p : Pool ω ρ L) (g : GetterId) : Prop :=
  (p.takers.get? g).map Taker.stand = some .asking

instance (p : Pool ω ρ L) (g : GetterId) : Decidable (p.Asks g) :=
  inferInstanceAs (Decidable (_ = _))

/-- One is seen to: if it asks for a key, then it stands in line for that or waits, and it waits
only if it asks. -/
structure Attended (p : Pool ω ρ L) (g : GetterId) : Prop where
  heard : p.Asks g → .ask g ∈ p.line ∨ p.queue.getters.Waits g
  asks : p.queue.getters.Waits g → p.Asks g

/-- Everyone who asks for a key is seen to, and who was called stands in line, as do the runs of the
timer that are ready. -/
structure Attentive (p : Pool ω ρ L) : Prop where
  attended : ∀ g, p.Attended g
  called : ∀ g ∈ p.queue.getters.woken.map Prod.fst, .ask g ∈ p.line
  timed : p.queue.timers.count .ready ≤ timersInLine p.line

/-- One who asks for a key stands in line for that or is asleep. -/
theorem Attentive.ask_mem (h : Attentive p) (hg : p.Asks g) :
    .ask g ∈ p.line ∨ g ∈ p.queue.getters.asleep :=
  ((h.attended g).heard hg).elim .inl fun hw => hw.elim .inr fun hw => .inl (h.called g hw)

/-! ## The line -/

/-- Those who ask in a line are those with a task for that in it. -/
@[simp] theorem mem_askers {line : List (Task ρ)} : g ∈ askers line ↔ .ask g ∈ line := by
  unfold askers
  rw [List.mem_filterMap]
  constructor
  · rintro ⟨t, ht, hg⟩
    cases t with
    | ask x =>
      cases hg
      exact ht
    | start | resume | finish | timer => cases hg
  · exact fun h => ⟨_, h, rfl⟩

@[simp] theorem timersInLine_append (ts ts' : List (Task ρ)) :
    timersInLine (ts ++ ts') = timersInLine ts + timersInLine ts' :=
  List.countP_append

/-- Tasks that come into line do not take a run of the timer out of it. -/
theorem timersInLine_le_append (ts ts' : List (Task ρ)) :
    timersInLine ts ≤ timersInLine (ts ++ ts') := by
  rw [timersInLine_append]
  exact Nat.le_add_right _ _

/-- One who is in line to ask is so without another task as well. -/
theorem ask_mem_of_ne {t : Task ρ} {before after : List (Task ρ)} (hx : t ≠ .ask x)
    (h : .ask x ∈ before ++ t :: after) : .ask x ∈ before ++ after := by
  simp only [List.mem_append, List.mem_cons] at h ⊢
  exact h.imp_right fun h => h.resolve_left (Ne.symm hx)

/-- The runs of the timer in a line are those without one of its tasks, and that one if it is a run.
-/
theorem timersInLine_insert (before after : List (Task ρ)) (t : Task ρ) :
    timersInLine (before ++ t :: after) = timersInLine (before ++ after) + timersInLine [t] := by
  rw [← List.singleton_append, timersInLine_append, timersInLine_append, timersInLine_append]
  omega

/-- Nothing gets out of line when those who were called come into it. -/
theorem mem_line_gather {t : Task ρ} (h : t ∈ p.line) : t ∈ p.gather.line :=
  List.mem_append_left _ (List.mem_append_left _ h)

/-- The runs of the timer that are ready are in line once each. -/
theorem timersInLine_gather (p : Pool ω ρ L) : timersInLine p.gather.line =
    timersInLine p.line + (p.queue.timers.count .ready - timersInLine p.line) := by
  have hask : ∀ gs : List GetterId, timersInLine (gs.map (Task.ask (ρ := ρ))) = 0 := fun gs => by
    simp [timersInLine, List.countP_map, Function.comp_def]
  have htimer : ∀ n, timersInLine (List.replicate n (Task.timer (ρ := ρ))) = n := fun n => by
    simp [timersInLine, List.countP_replicate]
  unfold gather
  dsimp only
  rw [timersInLine_append, timersInLine_append, hask, htimer, Nat.add_zero]

/-- What is ready is in line after it was gathered. -/
theorem attentive_gather (h : ∀ g, p.Attended g) : Attentive p.gather where
  attended g := ⟨fun hg => ((h g).heard hg).imp_left mem_line_gather, (h g).asks⟩
  called g hg := by
    by_cases hin : .ask g ∈ p.line
    · exact mem_line_gather hin
    · have hnew : g ∈ (p.queue.getters.woken.map Prod.fst).filter (· ∉ askers p.line) :=
        List.mem_filter.2 ⟨hg, by simpa using hin⟩
      exact List.mem_append_left _ (List.mem_append_right _ (List.mem_map.2 ⟨g, hnew, rfl⟩))
  timed := by
    have hready : p.queue.timers.count .ready ≤ timersInLine p.gather.line := by
      rw [timersInLine_gather]
      omega
    exact hready

/-- If all who were called are in line, only runs of the timer are gathered. -/
theorem gather_of_called (hcalled : ∀ g ∈ p.queue.getters.woken.map Prod.fst, .ask g ∈ p.line) :
    p.gather = { p with
      line := p.line ++
        List.replicate (p.queue.timers.count .ready - timersInLine p.line) .timer } := by
  have hnone : (p.queue.getters.woken.map Prod.fst).filter (· ∉ askers p.line) = [] :=
    List.filter_eq_nil_iff.2 fun g hg => by simpa using hcalled g hg
  unfold gather
  rw [hnone]
  dsimp only
  rw [List.map_nil, List.append_nil]

/-- If what is ready is in line already, nothing is gathered. -/
theorem gather_eq_self (hcalled : ∀ g ∈ p.queue.getters.woken.map Prod.fst, .ask g ∈ p.line)
    (htimed : p.queue.timers.count .ready ≤ timersInLine p.line) : p.gather = p := by
  rw [gather_of_called hcalled, Nat.sub_eq_zero_of_le htimed, List.replicate_zero, List.append_nil]

/-! ## Steps -/

/-- One is still seen to if it waits as before, stands where it stood and is not taken from the
line. -/
theorem Attended.congr (h : p.Attended g)
    (hq : p'.queue.getters.Waits g ↔ p.queue.getters.Waits g)
    (ht : p'.takers.get? g = p.takers.get? g) (hline : .ask g ∈ p.line → .ask g ∈ p'.line) :
    p'.Attended g := by
  have hasks : p'.Asks g ↔ p.Asks g := by rw [Asks, Asks, ht]
  exact ⟨fun hg => (h.heard (hasks.1 hg)).imp hline hq.2, fun hg => hasks.2 (h.asks (hq.1 hg))⟩

/-- A step that leaves the queue and those who take keys alone, and takes no one from the line. -/
theorem Attentive.congr (h : Attentive p) (hq : p'.queue = p.queue) (ht : p'.takers = p.takers)
    (hline : ∀ g, .ask g ∈ p.line → .ask g ∈ p'.line)
    (htimers : timersInLine p.line ≤ timersInLine p'.line) : Attentive p' where
  attended g := (h.attended g).congr (by rw [hq]) (by rw [ht]) (hline g)
  called g hg := hline g (h.called g (hq ▸ hg))
  timed := by
    rw [hq]
    exact Nat.le_trans h.timed htimers

/-- One who does not ask and does not wait. -/
theorem attended_of_not (hg : ¬ p.Asks g) (hw : ¬ p.queue.getters.Waits g) : p.Attended g :=
  ⟨fun h => absurd h hg, fun h => absurd h hw⟩

/-- When one stands somewhere else, it is seen from there whether it asks, and the others are left
as they are. -/
theorem asks_insert {t : Taker} (h : p'.takers = p.takers.insert g t) (x : GetterId) :
    p'.Asks x ↔ if x = g then t.stand = .asking else p.Asks x := by
  unfold Asks
  rw [h, Table.get?_insert]
  split
  · simp
  · exact .rfl

/-- When one stands somewhere else, the others are seen to as before. -/
theorem Attended.place {t : Taker} (h : p.Attended x) (hx : x ≠ g) : (p.place g t).Attended x :=
  h.congr .rfl (Table.get?_insert_of_ne hx ..) id

/-- One who does not wait goes on to a stand where it does not ask. -/
theorem attended_place {t : Taker} (hw : ¬ p.queue.getters.Waits g) (ht : t.stand ≠ .asking) :
    (p.place g t).Attended g := by
  refine attended_of_not ?_ hw
  rw [asks_insert (show (p.place g t).takers = p.takers.insert g t from rfl), if_pos rfl]
  exact ht

/-- When one that does not wait comes to stand where it does not ask, everyone is seen to as before.
-/
theorem Attentive.place {t : Taker} (h : Attentive p) (hw : ¬ p.queue.getters.Waits g)
    (ht : t.stand ≠ .asking) : Attentive (p.place g t) := by
  refine ⟨fun x => ?_, h.called, h.timed⟩
  by_cases hx : x = g
  · subst hx
    exact attended_place hw ht
  · exact (h.attended x).place hx

/-- One who asks for a key falls asleep or gets its answer, and then it does not ask any more. -/
theorem attentive_askFor (c : Craft ω ρ) (h : ∀ x ≠ g, p.Attended x) (hg : p.Asks g) :
    Attentive (askFor c p g r) := by
  -- the other ones are seen to as before, whatever this one becomes
  have hrest : ∀ q : WorkQueue L, (∀ x ≠ g, q.getters.Waits x ↔ p.queue.getters.Waits x) →
      ∀ x ≠ g, ({ p with queue := q } : Pool ω ρ L).Attended x := fun q hq x hx =>
    (h x hx).congr (hq x hx) rfl id
  have hplace : ∀ (q : WorkQueue L) (t : Taker), q.getters = p.queue.getters.run g →
      t.stand ≠ .asking → Attentive ({ p with queue := q }.place g t).gather := by
    intro q t hq ht
    refine attentive_gather fun x => ?_
    have hw : ∀ x, q.getters.Waits x ↔ x ≠ g ∧ p.queue.getters.Waits x := fun x => by
      rw [hq, Wakeups.waits_run]
    by_cases hx : x = g
    · subst hx
      exact attended_place (fun hx => ((hw x).1 hx).1 rfl) ht
    · exact (hrest q (fun x hx => (hw x).trans (and_iff_right hx)) x hx).place hx
  have hgetters := WorkQueue.ask_getters p.queue g
  unfold askFor
  split
  · next q he =>
    rw [he] at hgetters
    have hw : ∀ x, q.getters.Waits x ↔ x = g ∨ x ≠ g ∧ p.queue.getters.Waits x := fun x => by
      rw [show q.getters = _ from hgetters, Wakeups.waits_sleep, Wakeups.waits_run]
    refine attentive_gather fun x => ?_
    by_cases hx : x = g
    · subst hx
      exact ⟨fun _ => .inr ((hw x).2 (.inl rfl)), fun _ => hg⟩
    · exact hrest q (fun x hx => (hw x).trans (by simp [hx])) x hx
  · next q he =>
    rw [he] at hgetters
    have hend := hplace q ⟨r, .ended false⟩ hgetters (by simp)
    cases r with
    | keeper => exact hend.congr rfl rfl (fun _ => id) (Nat.le_refl _)
    | helper | worker => exact hend
  · next k q he =>
    rw [he] at hgetters
    have hstart := hplace q ⟨r, .working k⟩ hgetters (by simp)
    cases r with
    | keeper =>
      have hend := hplace q ⟨.keeper, .ended true⟩ hgetters (by simp)
      exact hend.congr rfl rfl (fun _ => id) (Nat.le_refl _)
    | helper | worker =>
      exact hstart.congr rfl rfl (fun _ => List.mem_append_left _) (timersInLine_le_append _ _)

variable [Limiter L]

/-- Everyone is seen to after work has ended, with whatever outcome. -/
theorem Attentive.finish (h : Attentive p) : Attentive (finish c p g o) := by
  unfold Pool.finish tryQueue
  split
  · next r k hg =>
    have hasks : ¬ p.Asks g := by simp [Asks, hg]
    have hwaits : ∀ x, (p.queue.handBack k o p.now).2.getters.Waits x ↔ p.queue.getters.Waits x :=
      fun x => WorkQueue.waits_handBack
    dsimp only
    generalize p.queue.handBack k o p.now = res at hwaits
    obtain ⟨res, q⟩ := res
    have hq : Attentive ({ p with queue := q } : Pool ω ρ L).gather :=
      attentive_gather fun x => (h.attended x).congr (hwaits x) rfl id
    -- one who has a key does not wait for one, so it can go on to any stand
    have hg' : ¬ q.getters.Waits g := fun hw => hasks ((h.attended g).asks ((hwaits g).1 hw))
    cases res with
    | error e => exact hq.place hg' (by simp)
    | ok u =>
      cases r with
      | worker =>
        refine attentive_askFor c (fun x hx => (hq.attended x).place hx) ?_
        simp [Asks, Pool.place]
      | keeper | helper => exact hq.place hg' (by simp)
  · exact h

/-- Every task keeps a pool attentive, whatever its place in the line was. -/
theorem Attentive.perform {t : Task ρ} {before after : List (Task ρ)} (h : Attentive p)
    (hline : p.line = before ++ t :: after) :
    Attentive (perform c { p with line := before ++ after } t) := by
  have hask : ∀ x, t ≠ .ask x → .ask x ∈ p.line → .ask x ∈ before ++ after := fun x hx hmem =>
    ask_mem_of_ne hx (hline ▸ hmem)
  have hothers : ∀ x, t ≠ .ask x →
      ({ p with line := before ++ after } : Pool ω ρ L).Attended x := fun x hx =>
    (h.attended x).congr .rfl rfl (hask x hx)
  have htimers : timersInLine p.line = timersInLine (before ++ after) + timersInLine [t] :=
    hline ▸ timersInLine_insert before after t
  cases t with
  | ask g =>
    rcases perform_ask_cases c ({ p with line := before ++ after } : Pool ω ρ L) g with
      ⟨r, hg, he⟩ | ⟨hno, he⟩ <;> rw [he]
    · exact attentive_askFor c (fun x hx => hothers x fun e => hx (by cases e; rfl))
        (by simp [Asks, hg])
    · -- who does not ask does not wait, so it was not called
      have hasks : ¬ p.Asks g := by
        intro hg
        obtain ⟨⟨r, s⟩, hr, rfl⟩ := Option.map_eq_some_iff.1 hg
        exact hno r hr
      have hne : ∀ x, p.queue.getters.Waits x → (Task.ask g : Task ρ) ≠ .ask x := by
        rintro x hx ⟨⟩
        exact hasks ((h.attended g).asks hx)
      refine ⟨fun x => ?_, fun x hx => hask x (hne x (.inr hx)) (h.called x hx),
        Nat.le_trans h.timed (Nat.le_of_eq htimers)⟩
      by_cases hx : x = g
      · subst hx
        exact attended_of_not hasks fun hw => hasks ((h.attended x).asks hw)
      · exact hothers x fun e => hx (by cases e; rfl)
  | start g k =>
    have hp : Attentive ({ p with line := before ++ after } : Pool ω ρ L) :=
      h.congr rfl rfl (fun x => hask x (by simp)) (Nat.le_of_eq htimers)
    unfold Pool.perform
    dsimp only
    split
    · exact hp.congr rfl rfl (fun _ => List.mem_append_left _) (timersInLine_le_append _ _)
    · exact hp.congr rfl rfl (fun _ => id) (Nat.le_refl _)
  | resume g k rest =>
    refine h.congr rfl rfl (fun x hx => List.mem_append_left _ (hask x (by simp) hx)) ?_
    exact Nat.le_trans (Nat.le_of_eq htimers) (timersInLine_le_append _ _)
  | finish g o =>
    exact Attentive.finish (h.congr rfl rfl (fun x => hask x (by simp)) (Nat.le_of_eq htimers))
  | timer =>
    have hfire : WorkQueue.Step p.now p.queue .fire (p.queue.runTimer p.now) := .fire
    exact attentive_gather fun x => (hothers x (by simp)).congr (hfire.waits_iff rfl) rfl id

variable {ds : List WorkQueue.Deed} {τ : WorkQueue.History}

/-- Whatever happens to a pool, it stays attentive. -/
theorem Step.attentive (hs : Step c p ds p') (h : Attentive p) : Attentive p' := by
  cases hs with
  | @notify d q hd hq =>
    refine attentive_gather fun x => (h.attended x).congr (hq.waits_iff ?_) rfl id
    cases d <;> first | rfl | cases hd
  | perform before after hline hp => exact hp ▸ h.perform hline
  | pass =>
    exact attentive_gather fun x => (h.attended x).congr .rfl rfl (List.mem_append_left _)
  | world w => exact h.congr rfl rfl (fun _ => id) (Nat.le_refl _)

omit [Limiter L] in
/-- One who joins asks for a key and stands in line for that. -/
theorem Attentive.join (h : Attentive p) (r : Role) : Attentive (p.join r).2 := by
  have hins : (p.join r).2.takers = p.takers.insert p.nextId { role := r } := rfl
  have hline : ∀ {t}, t ∈ p.line → t ∈ (p.join r).2.line := List.mem_append_left _
  refine ⟨fun x => ?_, fun x hx => hline (h.called x hx), ?_⟩
  · by_cases hx : x = p.nextId
    · subst hx
      refine ⟨fun _ => .inl (List.mem_append_right _ (.head _)), fun _ => ?_⟩
      rw [asks_insert hins, if_pos rfl]
    · exact (h.attended x).congr .rfl (by rw [hins, Table.get?_insert_of_ne hx]) hline
  · exact Nat.le_trans h.timed (timersInLine_le_append _ _)

omit [Limiter L] in
/-- In a pool that begins everyone is seen to: all workers stand in line. -/
theorem attentive_opening (now : Instant) (name : String) (l : L) (w : ω) (n : Nat) :
    Attentive (opening now name l w n : Pool ω ρ L) := by
  have hjoin : ∀ (n : Nat) (p : Pool ω ρ L), Attentive p → Attentive (p.joinWorkers n) := by
    intro n
    induction n with
    | zero => exact fun _ => id
    | succ n ih => exact fun p h => ih _ (h.join .worker)
  exact hjoin _ _ ⟨fun g => attended_of_not nofun (by simp [Wakeups.Waits, WorkQueue.withLimiter]),
    nofun, Nat.le_refl _⟩

/-- In every run of a pool of workers, no one who asks for a key is forgotten. -/
theorem Run.attentive {now : Instant} {name : String} {l : L} {w : ω} {m : Nat}
    (h : Run c (opening now name l w m) τ p) : Attentive p := by
  induction h with
  | start => exact attentive_opening now name l w m
  | next _ hs ih => exact hs.attentive ih

end

end Pool

end Prewarm
