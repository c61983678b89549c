import Prewarm.Proofs.WorkQueue.Additions

/-!
# A key is worked on at most once more

Keys that come into a queue only after the delays of a limiter, none of which is no time at all,
wait before they are dirty, and the timer that makes them dirty takes them from those that wait. So
no key is both (`Apart`), and at most one more hand-out of a key is on its way at any time. A key
that is handed out is neither. However often it is added while a worker has it, it is handed out at
most once more if it is not added after the work is done (`reruns_at_most_once`), and it is pending
until then. The clock has to be able to show the end of the delay: where it cannot, the addition
breaks off and the key is not handed out again (`rerun_lost_beyond_clock`).
-/

namespace Prewarm.WorkQueue

section
variable {L : Type} {q q' : WorkQueue L} {now : Instant} {e : Deed} {k : Key} {σ ρ : History}

/-- Whether a deed adds a key in no other way than after the delay of the limiter. -/
def Deed.IsLimited : Deed → Prop
  | add _ | addAfter _ _ => False
  | _ => True

/-- Whether a deed adds a key, in any way. -/
def Deed.Adds (k : Key) : Deed → Prop
  | add x | addAfter x _ | addRateLimited x => x = k
  | _ => False

/-- Where keys come in only after the delays of the limiter, what does not add a key in that way
does not add it at all. -/
theorem Deed.IsLimited.not_adds (h : e.IsLimited) (hne : e ≠ .addRateLimited k) : ¬ e.Adds k := by
  cases e with
  | add | addAfter => cases h
  | addRateLimited x => exact fun hx => hne (congrArg _ hx)
  | handOut | turnAway | leave | done | forget | shutDown | tick | fire => exact id

/-- Whether a key is not added any more after the work on it is done. -/
def NotAddedSinceDone (k : Key) (σ : History) : Prop :=
  ∀ α β s s', σ = α ++ (s, .done k) :: β → (s', .addRateLimited k) ∉ β

/-- What was not added since it was done in a history was not in the beginning of that history. -/
theorem NotAddedSinceDone.of_append {σ' : History} (h : NotAddedSinceDone k (σ ++ σ')) :
    NotAddedSinceDone k σ := by
  rintro α β s s' rfl hmem
  exact h α (β ++ σ') s s' (List.append_assoc ..) (List.mem_append_left _ hmem)

/-- A key that is added now is not done yet. -/
theorem NotAddedSinceDone.not_done
    (h : NotAddedSinceDone k (σ ++ [(now, .addRateLimited k)])) (s : Instant) :
    (s, Deed.done k) ∉ σ := by
  intro hmem
  obtain ⟨α, β, rfl⟩ := List.append_of_mem hmem
  exact h α (β ++ [(now, .addRateLimited k)]) s now (List.append_assoc ..)
    (List.mem_append_right _ (.head _))

/-- A key that is not done in the first part of a history and not added in the second one is not
added after it is done. -/
theorem notAddedSinceDone_append {α β : History} (hα : ∀ s, (s, Deed.done k) ∉ α)
    (hβ : ∀ s, (s, Deed.addRateLimited k) ∉ β) : NotAddedSinceDone k (α ++ β) := by
  intro α' β' s s' heq hmem
  rcases List.append_eq_append_iff.1 heq with ⟨γ, rfl, rfl⟩ | ⟨γ, rfl, hγ⟩
  · exact hβ s' (List.mem_append_right _ (List.mem_cons_of_mem _ hmem))
  · cases γ with
    | nil =>
      rw [List.nil_append] at hγ
      exact hβ s' (hγ ▸ List.mem_cons_of_mem _ hmem)
    | cons x γ =>
      cases hγ
      exact hα s (List.mem_append_right _ (.head _))

/-- A hand-out of a key counts. -/
@[simp] theorem handOuts_concat_handOut (k : Key) (g : GetterId) (σ : History) (now : Instant) :
    handOuts k (σ ++ [(now, .handOut g k)]) = handOuts k σ + 1 := by
  simp [handOuts]

/-- Whatever is not a hand-out of a key does not count as one. -/
theorem handOuts_concat (h : ∀ g, e ≠ .handOut g k) (σ : History) (now : Instant) :
    handOuts k (σ ++ [(now, e)]) = handOuts k σ := by
  unfold handOuts
  rw [List.countP_append, List.countP_singleton]
  cases e with
  | handOut g x =>
    have hx : x ≠ k := fun hx => h g (by rw [hx])
    simp [hx]
  | add | addAfter | addRateLimited | turnAway | leave | done | forget | shutDown | tick | fire =>
    simp

/-! ## Dirty keys do not wait -/

/-- A key that is dirty does not wait as well. -/
def Apart (q : WorkQueue L) : Prop := ∀ k ∈ q.dirty, q.waiting.get? k = none

/-- An addition makes no other key dirty. -/
theorem mem_dirty_of_add {x : Key} (h : k ∈ (q.add x).dirty) : k = x ∨ k ∈ q.dirty := by
  rcases add_cases q x with ⟨-, he⟩ | ⟨-, -, -, he⟩ | ⟨-, -, -, he⟩ <;> rw [he] at h
  · exact .inr h
  · exact mem_mark.1 h
  · exact mem_mark.1 h

/-- Additions make no other keys dirty. -/
theorem mem_dirty_of_foldl_add {ks : List Key} (h : k ∈ (ks.foldl WorkQueue.add q).dirty) :
    k ∈ ks ∨ k ∈ q.dirty := by
  induction ks generalizing q with
  | nil => exact .inr h
  | cons x ks ih =>
    rcases ih h with hk | hk
    · exact .inl (List.mem_cons_of_mem x hk)
    · exact (mem_dirty_of_add hk).imp_left fun (hx : k = x) => hx ▸ .head _

/-- A key that is added at an instant does not wait while it is dirty. -/
theorem Apart.addAt (h : Apart q) (x : Key) (due : Instant) : Apart (q.addAt x due) := by
  rcases addAt_cases q x due with ⟨-, he⟩ | ⟨-, hx, w, ts, b, hw, he⟩ <;> rw [he]
  · exact h
  · intro k hk
    have hne : k ≠ x := fun e => hx (e ▸ hk)
    exact (hw k).trans ((if_neg hne).trans (h k hk))

/-- A key that waits after a run of the timer has waited before, for the same instant. -/
theorem get?_of_runTimer {t : Instant} (h : (q.runTimer now).waiting.get? k = some t) :
    q.waiting.get? k = some t := by
  rcases runTimer_cases q now with he | ⟨-, ts, he⟩ | ⟨-, ts, r, b, he⟩ <;> rw [he] at h
  · exact h
  · exact h
  · dsimp only at h
    rw [foldl_add_waiting, Table.get?_filter, Option.filter_eq_some_iff] at h
    exact h.1

/-- A key that the timer adds does not wait any more. -/
theorem mem_dirty_of_runTimer (h : k ∈ (q.runTimer now).dirty) : k ∈ q.dirty ∨
    (q.waiting.get? k).isSome ∧ (q.runTimer now).waiting.get? k = none := by
  rcases runTimer_cases q now with he | ⟨-, ts, he⟩ | ⟨-, ts, r, b, he⟩ <;> rw [he] at h ⊢
  · exact .inl h
  · exact .inl h
  · refine (mem_dirty_of_foldl_add h).symm.imp_right fun hk => ?_
    obtain ⟨t, ht, hr⟩ := mem_due.1 hk
    dsimp only
    rw [foldl_add_waiting, Table.get?_filter]
    simp [ht, hr]

/-- A key that the timer makes dirty does not wait any more. -/
theorem Apart.runTimer (h : Apart q) (now : Instant) : Apart (q.runTimer now) := by
  intro k hk
  rcases mem_dirty_of_runTimer hk with hk | ⟨-, hnone⟩
  · refine Option.eq_none_iff_forall_ne_some.2 fun t ht => ?_
    cases (h k hk).symm.trans (get?_of_runTimer ht)
  · exact hnone

/-- A hand-out leaves no key both dirty and waiting. -/
theorem Apart.ask (h : Apart q) (g : GetterId) : Apart (q.ask g).2 := by
  rcases ask_cases q g with ⟨-, he⟩ | ⟨-, -, he⟩ | ⟨-, x, ks, -, he⟩ <;> rw [he]
  · exact h
  · exact h
  · exact fun k hk => h k (mem_unmark.1 hk).1

/-! ## What can make a key pending -/

/-- A key that is pending after a run of the timer has been so before. -/
theorem pending_of_runTimer (h : Pending (q.runTimer now) k) : Pending q k := by
  rcases h with h | h
  · exact (mem_dirty_of_runTimer h).imp_right And.left
  · obtain ⟨t, ht⟩ := Option.isSome_iff_exists.1 h
    exact .inr (get?_of_runTimer ht ▸ rfl)

/-- A key that is added at an instant makes no other key pending. -/
theorem pending_of_addAt {x : Key} {due : Instant} (hne : x ≠ k) (h : Pending (q.addAt x due) k) :
    Pending q k := by
  rcases addAt_cases q x due with ⟨-, he⟩ | ⟨-, -, w, ts, b, hw, he⟩ <;> rw [he] at h
  · exact h
  · refine h.imp_right fun h => ?_
    dsimp only at h
    rwa [hw, if_neg (Ne.symm hne)] at h

/-- A key that is added makes no other key pending. -/
theorem pending_of_add {x : Key} (hne : x ≠ k) (h : Pending (q.add x) k) : Pending q k := by
  unfold Pending at h
  rw [add_waiting] at h
  exact h.imp_left fun h => (mem_dirty_of_add h).resolve_left (Ne.symm hne)

/-- A key that is pending after one has asked for a key has been so before. -/
theorem pending_of_ask {g : GetterId} (h : Pending (q.ask g).2 k) : Pending q k := by
  rcases ask_cases q g with ⟨-, he⟩ | ⟨-, -, he⟩ | ⟨-, x, ks, -, he⟩ <;> rw [he] at h
  · exact h
  · exact h
  · exact h.imp_left fun h => (mem_unmark.1 h).1

end

section
variable {L : Type} [Limiter L] {l : L} {q q' : WorkQueue L} {now : Instant} {e : Deed} {k : Key}
  {σ ρ : History}

/-- Only an addition at once makes a key dirty that may be waiting. -/
theorem Apart.step (h : Apart q) (hs : Step now q e q') (he : e.IsLimited)
    (hzero : ∀ k, (Limiter.delay k now q.limiter).1 ≠ some .zero) : Apart q' := by
  cases hs with
  | add | addAfter => cases he
  | addRateLimited x =>
    rcases addRateLimited_cases q x now with ⟨l, -, he⟩ | ⟨d, l, hl, he⟩ <;> rw [he]
    · exact h
    · rcases addAfter_cases { q with limiter := l } x now d with ⟨rfl, -⟩ | ⟨-, -, he⟩ |
        ⟨-, t, -, he⟩
      · exact absurd (congrArg Prod.fst hl) (hzero x)
      · rw [he]
        exact h
      · rw [he]
        exact Apart.addAt (q := { q with limiter := l }) h x t
  | @handOut g x q' ha | @turnAway g a q' ha _ =>
    have := h.ask g
    rwa [ha] at this
  | done x =>
    obtain ⟨ks, ps, gs, he⟩ := done_eq q x
    rw [he]
    exact h
  | shutDown =>
    intro k _
    rw [shutDown_waiting]
    exact Table.get?_empty k
  | fire => exact h.runTimer now
  | leave | forget | tick => exact h

/-- If keys come in only after the delays of a limiter, and none of these is no time at all, no key
is ever both dirty and waiting. -/
theorem Run.apart {name : String} (h : Run (withLimiter name l) ρ q) (hl : Limiter.NeverZero l)
    (honly : ∀ x ∈ ρ, x.2.IsLimited) : Apart q := by
  induction h with
  | start => exact fun k hk => nomatch hk
  | @next τ q q' now e hrun _ hs ih =>
    refine (ih fun x hx => honly x (List.mem_append_left _ hx)).step hs
      (honly (now, e) (List.mem_append_right _ (.head _))) fun k => ?_
    exact hl q.limiter hrun.becomes k now

/-- A key becomes pending only by an addition of its own. -/
theorem Step.pending_of (hs : Step now q e q') (hno : ¬ e.Adds k) (h : Pending q' k) :
    Pending q k := by
  have hafter : ∀ {p : WorkQueue L} {x : Key} {d : Duration}, x ≠ k →
      Pending (p.addAfter x now d).2 k → Pending p k := by
    intro p x d hx h
    rcases addAfter_cases p x now d with ⟨-, he⟩ | ⟨-, -, he⟩ | ⟨-, t, -, he⟩ <;> rw [he] at h
    · exact pending_of_add hx h
    · exact h
    · exact pending_of_addAt hx h
  cases hs with
  | add x => exact pending_of_add hno h
  | addAfter x d => exact hafter hno h
  | addRateLimited x =>
    rcases addRateLimited_cases q x now with ⟨l, -, he⟩ | ⟨d, l, -, he⟩ <;> rw [he] at h
    · exact h
    · exact hafter (p := { q with limiter := l }) hno h
  | @handOut g x q' ha | @turnAway g a q' ha _ =>
    refine pending_of_ask (g := g) ?_
    rwa [ha]
  | done x =>
    obtain ⟨ks, ps, gs, he⟩ := done_eq q x
    rw [he] at h
    exact h
  | shutDown =>
    simp only [Pending, shutDown_dirty, shutDown_waiting, Table.get?_empty] at h
    exact h.imp_right fun h => absurd h Bool.false_ne_true
  | fire => exact pending_of_runTimer h
  | leave | forget | tick => exact h

/-! ## Hand-outs since a hand-out -/

/-- A key that is handed out stood on the queue and is not dirty any more. -/
theorem Step.handOut_eq {g : GetterId} (hs : Step now q (.handOut g k) q') :
    k ∈ q.queue ∧ k ∉ q'.dirty ∧ q'.waiting = q.waiting := by
  cases hs with
  | handOut h =>
    rcases ask_cases q g with ⟨-, h'⟩ | ⟨-, -, h'⟩ | ⟨-, x, ks, hq, h'⟩ <;>
      rw [h'] at h <;> cases h
    exact ⟨hq ▸ .head _, fun h => (mem_unmark.1 h).2 rfl, rfl⟩

/-- One who gets a key when asking for one makes the queue hand it out. -/
theorem step_handOut {g : GetterId} (h : (q.ask g).1 = .key k) :
    Step now q (.handOut g k) (q.ask g).2 := .handOut (Prod.ext h rfl)

/-- How it stands with a key since it was handed out: until it is done a worker has it, and it is
handed out at most once more, after which it is not pending. -/
structure Rerun (k : Key) (σ : History) (q : WorkQueue L) : Prop where
  before : (∀ s, (s, Deed.done k) ∉ σ) → k ∈ q.processing ∧ handOuts k σ = 0
  once : handOuts k σ = 0 ∨ handOuts k σ = 1 ∧ ¬ Pending q k

/-- A key that is handed out is not pending any more: it did not wait while it was on the queue. -/
theorem not_pending_of_handOut {g : GetterId} (ha : Apart q) (hx : Exclusive q)
    (hs : Step now q (.handOut g k) q') : ¬ Pending q' k := by
  obtain ⟨hk, hdirty, hwaiting⟩ := hs.handOut_eq
  rintro (h | h)
  · exact hdirty h
  · rw [hwaiting, ha k (hx.marked k hk)] at h
    cases h

/-- What is done since a key was handed out, and does not add it after it is done, hands it out at
most once more. -/
theorem Rerun.step (h : Rerun k σ q) (ha : Apart q) (hx : Exclusive q) (hs : Step now q e q')
    (he : e.IsLimited) (hadd : e = .addRateLimited k → ∀ s, (s, Deed.done k) ∉ σ) :
    Rerun k (σ ++ [(now, e)]) q' := by
  by_cases hout : ∃ g, e = .handOut g k
  · obtain ⟨g, rfl⟩ := hout
    have hnone : handOuts k σ = 0 :=
      h.once.resolve_right fun h => h.2 (.inl (hx.marked k hs.handOut_eq.1))
    refine ⟨fun hdone => ?_, .inr ⟨?_, not_pending_of_handOut ha hx hs⟩⟩
    · have hk := (h.before fun s hs => hdone s (List.mem_append_left _ hs)).1
      exact absurd hk (hs.not_processing hx)
    · rw [handOuts_concat_handOut, hnone]
  · have hcount := handOuts_concat (fun g hg => hout ⟨g, hg⟩) σ now
    refine ⟨fun hdone => ?_, ?_⟩
    · obtain ⟨hk, hnone⟩ := h.before fun s hs => hdone s (List.mem_append_left _ hs)
      refine ⟨hs.mem_processing.2 (.inr ⟨hk, ?_⟩), hcount.trans hnone⟩
      exact fun he => hdone now (List.mem_append_right _ (he ▸ .head _))
    · rw [hcount]
      by_cases hk : e = .addRateLimited k
      · exact .inl (h.before (hadd hk)).2
      · exact h.once.imp_right fun ⟨hone, hno⟩ =>
          ⟨hone, fun hp => hno (hs.pending_of (he.not_adds hk) hp)⟩

/-- In every run in which keys come in only after the delays of a limiter: since it was handed out,
a key is handed out at most once more if it is not added after it is done. -/
theorem Run.rerun {name : String} {τ : History} {t : Instant} {g : GetterId}
    (h : Run (withLimiter name l) (τ ++ (t, .handOut g k) :: σ) q) (hl : Limiter.NeverZero l)
    (honly : ∀ x ∈ τ ++ (t, .handOut g k) :: σ, x.2.IsLimited) (hnot : NotAddedSinceDone k σ) :
    Rerun k σ q := by
  have hempty : Exclusive (withLimiter name l) ∧ Ledger [] (withLimiter name l) :=
    ⟨exclusive_withLimiter name l, .nil, fun k => .rfl⟩
  refine h.since (motive := fun σ q => (∀ x ∈ τ ++ (t, .handOut g k) :: σ, x.2.IsLimited) →
    NotAddedSinceDone k σ → Rerun k σ q) ?_ ?_ honly hnot
  · intro q₁ q₂ _ hs _ _
    exact ⟨fun _ => ⟨hs.mem_processing.2 (.inl ⟨g, rfl⟩), rfl⟩, .inl rfl⟩
  · intro σ q₁ q₂ now e hrun hs ih honly hnot
    rw [← List.cons_append, ← List.append_assoc] at honly
    have honly' : ∀ x ∈ τ ++ (t, .handOut g k) :: σ, x.2.IsLimited :=
      fun x hx => honly x (List.mem_append_left _ hx)
    refine (ih honly' hnot.of_append).step (hrun.apart hl honly')
      (hrun.invariant hempty.1 hempty.2).1 hs (honly (now, e) (by simp)) fun he => ?_
    subst he
    exact hnot.not_done

/-- A key stays pending after an addition that does not fail, until it is handed out. -/
theorem Run.pending_since {name : String} {τ : History} {s : Instant} {d : Duration}
    (h : Run (withLimiter name l) (τ ++ (s, .addRateLimited k) :: σ) q)
    (hopen : ∀ t, (t, Deed.shutDown) ∉ τ ++ (s, .addRateLimited k) :: σ)
    (hd : (Limiter.delay k s (limiterAfter l τ)).1 = some d) (hshown : (s.add? d).isSome)
    (hnone : handOuts k σ = 0) : Pending q k := by
  refine h.since (motive := fun σ q =>
    (∀ t, (t, Deed.shutDown) ∉ τ ++ (s, .addRateLimited k) :: σ) → handOuts k σ = 0 →
      Pending q k) ?_ ?_ hopen hnone
  · intro q₁ q₂ hrun hs hopen _
    have hq₁ := hrun.not_shuttingDown rfl fun t ht => hopen t (List.mem_append_left _ ht)
    have hlimiter : q₁.limiter = limiterAfter l τ := hrun.limiter_eq
    refine (hs.pendingBy hq₁ (d := d) ?_ (.inr hshown)).pending
    rw [hlimiter, Deed.delay?, if_pos rfl, hd]
  · intro σ q₁ q₂ now e hrun hs ih hopen hnone
    rw [← List.cons_append, ← List.append_assoc] at hopen
    have hopen' : ∀ t, (t, Deed.shutDown) ∉ τ ++ (s, .addRateLimited k) :: σ :=
      fun t ht => hopen t (List.mem_append_left _ ht)
    have hout : ∀ g, e ≠ .handOut g k := by
      rintro g rfl
      rw [handOuts_concat_handOut] at hnone
      cases hnone
    rw [handOuts_concat hout] at hnone
    obtain ⟨due, hk⟩ := (ih hopen' hnone).exists_pendingBy
    have he : e ≠ .shutDown := fun he => hopen now (by simp [he])
    have hnext := hk.step hs (hrun.not_shuttingDown rfl hopen') he
    exact (hnext.resolve_left (not_exists.2 hout)).pending

/-- **Additions while a worker has a key amount to one.** In every run in which keys come in only
after the delays of a limiter that are never no time at all, as those of the controller's queue are:
no dirty key waits. And if a key is not added after the work on it is done, it is handed out at most
once more; and if it was added meanwhile after a delay whose end the clock can show, it is pending
until it is handed out or the queue shuts down, and not after that. -/
theorem reruns_at_most_once {name : String} (h : Run (withLimiter name l) ρ q)
    (hl : Limiter.NeverZero l) (honly : ∀ x ∈ ρ, x.2.IsLimited) :
    (∀ now, Limiter.NeverZero (RateLimiter.standard now)) ∧
    (∀ k ∈ q.dirty, q.waiting.get? k = none) ∧
    ∀ τ σ t g k, ρ = τ ++ (t, .handOut g k) :: σ → NotAddedSinceDone k σ →
      handOuts k σ ≤ 1 ∧
      ∀ α β s d, σ = α ++ (s, .addRateLimited k) :: β → (∀ t', (t', Deed.shutDown) ∉ ρ) →
        (Limiter.delay k s (limiterAfter l (τ ++ (t, .handOut g k) :: α))).1 = some d →
        (s.add? d).isSome →
        (handOuts k σ = 0 ∧ Pending q k) ∨ (handOuts k σ = 1 ∧ ¬ Pending q k) := by
  refine ⟨RateLimiter.neverZero_standard, h.apart hl honly, ?_⟩
  rintro τ σ t g k rfl hnot
  have hrerun := h.rerun hl honly hnot
  refine ⟨?_, ?_⟩
  · rcases hrerun.once with hnone | ⟨hone, -⟩ <;> omega
  · rintro α β s d rfl hopen hd hshown
    refine hrerun.once.imp_left fun hnone => ⟨hnone, ?_⟩
    have hβ : handOuts k β = 0 := by
      unfold handOuts at hnone ⊢
      rw [List.countP_append, List.countP_cons] at hnone
      omega
    rw [← List.cons_append, ← List.append_assoc] at h hopen
    exact h.pending_since hopen hd hshown hβ

end

/-- A key is added twice while a worker has it, with its delay counted from the start in between,
and is handed out once more after it is done. -/
theorem reruns_at_most_once_forgotten :
    let l := RateLimiter.exponential (.ofMillis 5) (.ofSeconds 1000)
    let q₁ := ((withLimiter "q" l).addRateLimited "ns/a" (.ofMillis 0)).2.runTimer (.ofMillis 5)
    let q₂ := (q₁.ask 1).2
    let q₃ := (q₂.addRateLimited "ns/a" (.ofMillis 6)).2.forget "ns/a"
    let q₄ := ((q₃.addRateLimited "ns/a" (.ofMillis 7)).2.done "ns/a").runTimer (.ofMillis 12)
    let q := (q₄.ask 2).2
    let τ : History := [(.ofMillis 0, .addRateLimited "ns/a"), (.ofMillis 5, .fire)]
    let σ : History := [(.ofMillis 6, .addRateLimited "ns/a"), (.ofMillis 6, .forget "ns/a"),
      (.ofMillis 7, .addRateLimited "ns/a"), (.ofMillis 8, .done "ns/a"), (.ofMillis 12, .fire),
      (.ofMillis 12, .handOut 2 "ns/a")]
    Run (withLimiter "q" l) (τ ++ (.ofMillis 5, .handOut 1 "ns/a") :: σ) q ∧
      handOuts "ns/a" σ = 1 ∧ ¬ Pending q "ns/a" := by
  intro l q₁ q₂ q₃ q₄ q τ σ
  have h₁ : Run (withLimiter "q" l) τ q₁ :=
    .next (.next .start (by simp) (.addRateLimited _)) (by simp) .fire
  have h₂ : Run (withLimiter "q" l) (τ ++ [(.ofMillis 5, .handOut 1 "ns/a")]) q₂ :=
    h₁.next (by simp) (step_handOut (by decide +kernel))
  have h₃ : Run (withLimiter "q" l) (τ ++ (.ofMillis 5, .handOut 1 "ns/a") :: σ.take 2) q₃ :=
    .next (.next h₂ (by simp) (.addRateLimited _)) (by simp) (.forget _)
  have h₄ : Run (withLimiter "q" l) (τ ++ (.ofMillis 5, .handOut 1 "ns/a") :: σ.take 5) q₄ := by
    refine .next (.next (.next h₃ (by simp) (.addRateLimited _)) (fun k hk => ?_) (.done _))
      (by simp) .fire
    cases hk
    decide
  have h : Run (withLimiter "q" l) (τ ++ (.ofMillis 5, .handOut 1 "ns/a") :: σ) q :=
    h₄.next (by simp) (step_handOut (by decide +kernel))
  have hl : Limiter.NeverZero l := RateLimiter.neverZero_exponential <|
    Backoff.wait_ne_zero (by decide) (by decide) (by decide)
  have hnot : NotAddedSinceDone "ns/a" σ :=
    notAddedSinceDone_append (α := σ.take 3) (by simp [σ]) (by simp)
  obtain ⟨-, -, hrerun⟩ := reruns_at_most_once h hl (by simp [τ, σ, Deed.IsLimited])
  obtain ⟨-, hpending⟩ := hrerun τ σ _ 1 "ns/a" rfl hnot
  have hend := hpending [] σ.tail (.ofMillis 6) (.ofMillis 10) rfl (by simp [τ, σ])
    (by decide +kernel) (by decide)
  exact ⟨h, hend.resolve_left fun hnone => absurd hnone.1 (by decide)⟩

/-- A limiter never fails and never has a delay of no time, but the clock cannot show the end of its
second delay. A key that is added while a worker has it is neither pending after it is done, nor is
it handed out again. -/
theorem rerun_lost_beyond_clock :
    let l := RateLimiter.exponential (.ofParts (Nat.pow 2 62) 1) (.ofSeconds (Nat.pow 2 63))
    let q₁ := ((withLimiter "q" l).addRateLimited "ns/a" (.ofMillis 0)).2.runTimer (.ofMillis 1)
    let q₂ := (q₁.ask 1).2
    let q := (q₂.addRateLimited "ns/a" (.ofMillis 1)).2.done "ns/a"
    let τ : History := [(.ofMillis 0, .addRateLimited "ns/a"), (.ofMillis 1, .fire)]
    let σ : History := [(.ofMillis 1, .addRateLimited "ns/a"), (.ofMillis 1, .done "ns/a")]
    Limiter.NeverFails l ∧ Limiter.NeverZero l ∧
      Run (withLimiter "q" l) (τ ++ (.ofMillis 1, .handOut 1 "ns/a") :: σ) q ∧
      (∀ x ∈ τ ++ (.ofMillis 1, .handOut 1 "ns/a") :: σ, x.2.IsLimited) ∧
      NotAddedSinceDone "ns/a" σ ∧ handOuts "ns/a" σ = 0 ∧ ¬ Pending q "ns/a" := by
  intro l q₁ q₂ q τ σ
  have h₁ : Run (withLimiter "q" l) τ q₁ :=
    .next (.next .start (by simp) (.addRateLimited _)) (by simp) .fire
  have h₂ : Run (withLimiter "q" l) (τ ++ [(.ofMillis 1, .handOut 1 "ns/a")]) q₂ :=
    h₁.next (by simp) (step_handOut (by decide +kernel))
  have h : Run (withLimiter "q" l) (τ ++ (.ofMillis 1, .handOut 1 "ns/a") :: σ) q := by
    refine .next (.next h₂ (by simp) (.addRateLimited _)) (fun k hk => ?_) (.done _)
    cases hk
    decide
  have hwait : ∀ n, Backoff.wait ⟨.ofParts (Nat.pow 2 62) 1, .ofSeconds (Nat.pow 2 63), .empty⟩ n ≠
      .zero := by
    intro n
    cases n with
    | zero => decide
    | succ n =>
      have hpow : Nat.pow 2 1 ≤ Nat.pow 2 (n + 1) :=
        Nat.pow_le_pow_right Nat.two_pos (Nat.le_add_left 1 n)
      have hlong : (Duration.ofSeconds (Nat.pow 2 63)).nanos <
          (Duration.ofParts (Nat.pow 2 62) 1).nanos * Nat.pow 2 (n + 1) :=
        Nat.lt_of_lt_of_le (by decide) (Nat.mul_le_mul_left _ hpow)
      rw [Backoff.wait_cut (by decide), if_pos hlong]
      decide
  have hnot : NotAddedSinceDone "ns/a" σ :=
    notAddedSinceDone_append (α := σ.take 1) (β := σ.drop 1) (by simp [σ]) (by simp [σ])
  refine ⟨RateLimiter.neverFails_exponential _ _, RateLimiter.neverZero_exponential hwait, h,
    by simp [τ, σ, Deed.IsLimited], hnot, rfl, ?_⟩
  have hdirty : q.dirty = [] := by decide +kernel
  have hwaiting : q.waiting.get? "ns/a" = none := by decide +kernel
  rintro (hk | hk)
  · rw [hdirty] at hk
    cases hk
  · rw [hwaiting] at hk
    cases hk

end Prewarm.WorkQueue
