import Prewarm.Proofs.Pool.Sound

/-!
# Keys that are kept track of

A key that needs work is kept track of while the work on it has not been done: it is pending, or
someone has begun to work on it since (`InFlight`), or such work has ended in a way that leaves
nothing to do (`Served`). No task of a pool loses track of a key (`Kept.perform`): what a hand-out
takes from the queue goes in flight, and what is in flight is handed back and pending again, or
served.
-/

namespace Prewarm.Pool

section
variable {ω ρ L : Type} {c : Craft ω ρ} {p p' : Pool ω ρ L} {g : GetterId} {r : Role} {k : Key}
  {τ evs : List Deed}

/-- Work on a key that began in the course of what was seen goes on. -/
def InFlight (τ : List Deed) (p : Pool ω ρ L) (k : Key) : Prop :=
  ∃ g τ₁ τ₂, τ = τ₁ ++ .begun g k :: τ₂ ∧ (∀ o, .ended g k o ∉ τ₂) ∧ p.worksOn? g = some k

/-- Work on a key that began in the course of what was seen has ended, and not in a way that calls
for more work. -/
def Served (τ : List Deed) (k : Key) : Prop :=
  ∃ g o τ₁ τ₂ τ₃, τ = τ₁ ++ .begun g k :: τ₂ ++ .ended g k o :: τ₃ ∧
    (∀ o', .ended g k o' ∉ τ₂) ∧ o.retries = false

/-- A key that needs work since the beginning of what was seen is kept track of. -/
def Kept (τ : List Deed) (p : Pool ω ρ L) (k : Key) : Prop :=
  p.queue.Pending k ∨ InFlight τ p k ∨ Served τ k

theorem Served.append (h : Served τ k) (evs : List Deed) : Served (τ ++ evs) k := by
  obtain ⟨g, o, τ₁, τ₂, τ₃, rfl, hτ₂, ho⟩ := h
  exact ⟨g, o, τ₁, τ₂, τ₃ ++ evs, by simp, hτ₂, ho⟩

/-- Work goes on if it is not seen to end. -/
theorem InFlight.append (h : InFlight τ p k)
    (hevs : ∀ g, p.worksOn? g = some k → (∀ o, .ended g k o ∉ evs) ∧ p'.worksOn? g = some k) :
    InFlight (τ ++ evs) p' k := by
  obtain ⟨g, τ₁, τ₂, rfl, hτ₂, hg⟩ := h
  obtain ⟨hend, hg'⟩ := hevs g hg
  refine ⟨g, τ₁, τ₂ ++ evs, by simp, fun o ho => ?_, hg'⟩
  exact (List.mem_append.1 ho).elim (hτ₂ o) (hend o)

/-- A step that is seen nothing of, after which the same keys are worked on. -/
theorem Kept.congr (h : Kept τ p k) (hq : p.queue.Pending k → p'.queue.Pending k)
    (hp : ∀ g, p.worksOn? g = some k → p'.worksOn? g = some k) : Kept τ p' k := by
  refine h.imp hq (Or.imp_left fun hf => ?_)
  have hf : InFlight (τ ++ []) p' k := hf.append fun g hg => ⟨fun _ => List.not_mem_nil, hp g hg⟩
  rwa [List.append_nil] at hf

/-! ## Tasks -/

/-- Who asks for a key goes on to work on it if it is this one, and no one else is touched. -/
theorem Kept.askFor (h : Kept τ p k) (hg : p.worksOn? g = none) (hr : r ≠ .keeper) :
    Kept (τ ++ ((askFor c p g r).worksOn? g).toList.map (.begun g)) (askFor c p g r) k := by
  obtain ⟨-, hq, htakers⟩ := askFor_cases c p g hr
  have hne : ∀ x, p.worksOn? x = some k → x ≠ g := fun x hx e => by
    rw [e, hg] at hx
    cases hx
  rcases htakers with ⟨y, hy, ht⟩ | ⟨hno, -⟩
  · have hw := worksOn?_insert ht
    rw [show (Pool.askFor c p g r).worksOn? g = some y from (hw g).trans (if_pos rfl)]
    rcases h with h | h | h
    · rcases h.ask g with hk | hk
      · cases hy.symm.trans hk
        exact .inr (.inl ⟨g, τ, [], rfl, fun _ => List.not_mem_nil, (hw g).trans (if_pos rfl)⟩)
      · exact .inl (hq ▸ hk)
    · refine .inr (.inl (h.append fun x hx => ⟨by simp, ?_⟩))
      exact (hw x).trans ((if_neg (hne x hx)).trans hx)
    · exact .inr (.inr (h.append _))
  · have hw := worksOn?_askFor_of_no_key (c := c) hr hg hno
    rw [hw g, hg]
    simp only [Option.toList_none, List.map_nil, List.append_nil]
    refine h.congr (fun hk => ?_) fun x hx => (hw x).trans hx
    exact hq ▸ (hk.ask g).resolve_left (hno k)

/-- One who joins works on no key yet. -/
theorem Kept.join {l : L} [Limiter L] (h : Kept τ p k) (hs : Sound l p) :
    Kept τ (p.join r).2 k := by
  refine h.congr id fun g hg => ?_
  obtain ⟨t, ht, -⟩ := Option.bind_eq_some_iff.1 hg
  have hne : g ≠ p.nextId := Nat.ne_of_lt (hs.named g t ht).1
  have hins : (p.join r).2.takers = p.takers.insert p.nextId { role := r } := rfl
  exact (worksOn?_insert hins g).trans ((if_neg hne).trans hg)

section
variable [Limiter L] {l : L} (hs : Sound l p) (hl : Limiter.NeverFails l)
  (ht : Limiter.ShownUntil p.now l)
include hs hl ht

/-- A key that is handed back is pending if it is to be worked on again, and served if not. -/
theorem Kept.handBack {t : Taker} {x : Key} {o : Outcome} (h : Kept τ p k)
    (hg : p.worksOn? g = some x) (hq : p'.queue = (p.queue.handBack x o p.now).2)
    (htakers : p'.takers = p.takers.insert g t) :
    Kept (τ ++ [.ended g x o]) p' k := by
  have hw := worksOn?_insert htakers
  rcases h with h | ⟨y, τ₁, τ₂, hτ, hτ₂, hy⟩ | h
  · exact .inl (hq ▸ h.handBack x o p.now)
  · by_cases hyg : y = g
    · subst hyg
      cases hg.symm.trans hy
      cases ho : o.retries with
      | true =>
        have hok := WorkQueue.handBack_ok hl ht hs.takes.becomes k o
        exact .inl (hq ▸ WorkQueue.pending_handBack hs.takes.notShuttingDown ho hok)
      | false => exact .inr (.inr ⟨y, o, τ₁, τ₂, [], by simp [hτ], hτ₂, ho⟩)
    · have hin : InFlight τ p k := ⟨y, τ₁, τ₂, hτ, hτ₂, hy⟩
      refine .inr (.inl ⟨y, τ₁, τ₂ ++ [.ended g x o], by simp [hτ], fun o' ho' => ?_, ?_⟩)
      · rcases List.mem_append.1 ho' with ho' | ho'
        · exact hτ₂ o' ho'
        · cases List.mem_singleton.1 ho'
          exact hyg rfl
      · exact (hw y).trans ((if_neg hyg).trans hy)
  · exact .inr (.inr (h.append _))

/-- No task loses track of a key. -/
theorem Kept.perform (h : Kept τ p k) (t : Task ρ) :
    Kept (τ ++ p.deeds (perform c p t) t) (perform c p t) k := by
  cases t with
  | ask g =>
    rcases perform_ask_cases c p g with ⟨r, hg, he⟩ | ⟨-, he⟩ <;> rw [he]
    · have hnone : p.worksOn? g = none := by simp [worksOn?, hg]
      simp only [deeds, hnone]
      exact h.askFor hnone (hs.named g _ hg).2
    · rwa [deeds_ask_self, List.append_nil]
  | start g x =>
    simp only [deeds, List.append_nil]
    refine h.congr (fun hk => ?_) fun y hy => ?_
    · rwa [(perform_start_eq c p g x).1]
    · rwa [worksOn?, (perform_start_eq c p g x).2]
  | resume g x rest =>
    simp only [deeds, List.append_nil]
    exact h.congr id fun _ => id
  | finish g o =>
    cases hx : p.worksOn? g with
    | none =>
      simp only [deeds, hx, List.append_nil, Pool.perform, finish_eq_self c o hx]
      exact h
    | some x =>
      obtain ⟨r, hg⟩ := exists_taker hx
      obtain ⟨e, he⟩ | ⟨-, p', -, hq, hp'⟩ := finish_cases c o hg
      · rw [WorkQueue.handBack_ok hl ht hs.takes.becomes x o] at he
        cases he
      · simp only [deeds, hx, Pool.perform]
        rcases hp' with ⟨rfl, htakers, hf⟩ | ⟨-, htakers, hf⟩ <;> rw [hf] <;>
          have hback := h.handBack hs hl ht hx hq htakers <;>
          have hnone : p'.worksOn? g = none := (worksOn?_insert htakers g).trans (if_pos rfl)
        · rw [List.append_cons]
          exact hback.askFor hnone (by decide)
        · rw [hnone]
          exact hback
  | timer =>
    simp only [deeds, List.append_nil]
    exact h.congr (fun hk => hk.runTimer hs.takes.notShuttingDown p.now) fun _ => id

end

end

end Prewarm.Pool
