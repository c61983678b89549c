import Prewarm.Proofs.Limiter
import Prewarm.Proofs.WorkQueue.Operations

/-!
# Runs of a work queue

What can be done with a queue, in any order, at any instants and by any number of clients: a `Run`
is a history of deeds with the queue they lead to. Its one rule is what clients promise: work on a
key is said to be done once for each time the key was handed out, and only while it is. Which keys
are handed out is read off the history (`held`), not off the queue.
-/

namespace Prewarm.WorkQueue

/-- Something that is done with a queue. -/
inductive Deed where
  | add (k : Key)
  | addAfter (k : Key) (d : Duration)
  | addRateLimited (k : Key)
  /-- Someone asks for a key and gets one. -/
  | handOut (g : GetterId) (k : Key)
  /-- Someone asks for a key and gets none. -/
  | turnAway (g : GetterId)
  /-- Someone who waits for a key leaves without one. -/
  | leave (g : GetterId)
  | done (k : Key)
  | forget (k : Key)
  | shutDown
  /-- Instants are reached that runs of the timer are parked until. -/
  | tick
  /-- A run of the timer adds the keys that are due. -/
  | fire
  deriving DecidableEq

/-- The keys that are handed out after a deed, one for each hand-out. -/
def Deed.hold (ks : List Key) : Deed → List Key
  | handOut _ k => k :: ks
  | done k => ks.erase k
  | _ => ks

/-- What was done with a queue, the first first, each with its instant. -/
abbrev History := List (Instant × Deed)

/-- The keys that were handed out and are not done since, one for each hand-out. -/
def held (τ : History) : List Key := τ.foldl (fun ks e => e.2.hold ks) []

/-- How often a key was handed out. -/
def handOuts (k : Key) (τ : History) : Nat :=
  τ.countP fun e => match e.2 with
    | .handOut _ x => x = k
    | _ => false

/-- How often a key was said to be done. -/
def dones (k : Key) (τ : History) : Nat :=
  τ.countP fun e => match e.2 with
    | .done x => x = k
    | _ => false

/-- A deed hands out one more key, or one fewer, than the history before it. -/
@[simp] theorem held_concat (τ : History) (now : Instant) (e : Deed) :
    held (τ ++ [(now, e)]) = e.hold (held τ) := by
  simp [held, List.foldl_append]

section
variable {L : Type} [Limiter L] {q₀ q q' : WorkQueue L} {now : Instant} {e : Deed} {k : Key}
  {τ : History}

/-- What a limiter becomes by a deed. -/
def Deed.limit (now : Instant) (l : L) : Deed → L
  | .addRateLimited k => (Limiter.delay k now l).2
  | .forget k => Limiter.forget k l
  | _ => l

/-- What the limiter of a queue has become by what was done with the queue. -/
def limiterAfter (l : L) (τ : History) : L := τ.foldl (fun l e => e.2.limit e.1 l) l

/-- What a deed at an instant makes of a queue. -/
inductive Step (now : Instant) (q : WorkQueue L) : Deed → WorkQueue L → Prop
  | add (k : Key) : Step now q (.add k) (q.add k)
  | addAfter (k : Key) (d : Duration) : Step now q (.addAfter k d) (q.addAfter k now d).2
  | addRateLimited (k : Key) : Step now q (.addRateLimited k) (q.addRateLimited k now).2
  | handOut {g : GetterId} {k : Key} {q' : WorkQueue L} :
      q.ask g = (.key k, q') → Step now q (.handOut g k) q'
  | turnAway {g : GetterId} {a : Answer} {q' : WorkQueue L} :
      q.ask g = (a, q') → (∀ k, a ≠ .key k) → Step now q (.turnAway g) q'
  | leave (g : GetterId) : Step now q (.leave g) (q.leave g)
  | done (k : Key) : Step now q (.done k) (q.done k)
  | forget (k : Key) : Step now q (.forget k) (q.forget k)
  | shutDown : Step now q .shutDown q.shutDown
  | tick : Step now q .tick (q.tick now)
  | fire : Step now q .fire (q.runTimer now)

/-- A history of a queue, with the queue it leads to. Only a key that is handed out is done. -/
inductive Run (q₀ : WorkQueue L) : History → WorkQueue L → Prop
  | start : Run q₀ [] q₀
  | next {τ : History} {q q' : WorkQueue L} {now : Instant} {e : Deed} :
      Run q₀ τ q → (∀ k, e = .done k → k ∈ held τ) → Step now q e q' →
      Run q₀ (τ ++ [(now, e)]) q'

/-! ## Steps -/

/-- The limiter after a deed is what the deed makes of it. -/
theorem Step.limiter_eq (h : Step now q e q') : q'.limiter = e.limit now q.limiter := by
  cases h with
  | add x => exact (adds_add q x).limiter
  | addAfter x d => exact (adds_addAfter q x now d).limiter
  | addRateLimited x =>
    rcases addRateLimited_cases q x now with ⟨l, hl, he⟩ | ⟨d, l, hl, he⟩ <;>
      rw [he, Deed.limit, hl]
    exact (adds_addAfter { q with limiter := l } x now d).limiter
  | @handOut g x q' h | @turnAway g a q' h _ =>
    have hl := ask_limiter q g
    rwa [h] at hl
  | done x => exact done_limiter q x
  | fire => exact (adds_runTimer q now).limiter
  | shutDown => exact shutDown_limiter q
  | leave | forget | tick => rfl

/-- The limiter after a deed comes of delays and resets, and of nothing else. -/
theorem Step.becomes (h : Step now q e q') : Limiter.Becomes q.limiter q'.limiter := by
  rw [h.limiter_eq]
  cases e with
  | addRateLimited k => exact .delay k now .refl
  | forget k => exact .forget k .refl
  | add | addAfter | handOut | turnAway | leave | done | shutDown | tick | fire => exact .refl

/-- Nothing but a deed of its own makes a queue shut down. -/
theorem Step.shuttingDown_eq (h : Step now q e q') (he : e ≠ .shutDown) :
    q'.shuttingDown = q.shuttingDown := by
  cases h with
  | add x => exact (adds_add q x).shuttingDown
  | addAfter x d => exact (adds_addAfter q x now d).shuttingDown
  | addRateLimited x =>
    rcases addRateLimited_cases q x now with ⟨l, -, h⟩ | ⟨d, l, -, h⟩ <;> rw [h]
    exact (adds_addAfter { q with limiter := l } x now d).shuttingDown
  | @handOut g x q' h | @turnAway g a q' h _ =>
    have hs := ask_shuttingDown q g
    rwa [h] at hs
  | done x => exact done_shuttingDown q x
  | fire => exact (adds_runTimer q now).shuttingDown
  | shutDown => exact absurd rfl he
  | leave | forget | tick => rfl

/-- A queue that shuts down does so ever after. -/
theorem Step.shuttingDown_mono (h : Step now q e q') (hs : q.shuttingDown = true) :
    q'.shuttingDown = true := by
  by_cases he : e = .shutDown
  · subst he
    cases h
    exact shutDown_shuttingDown q
  · rw [h.shuttingDown_eq he, hs]

/-- What workers have after a deed: a key that is handed out is added, one that is done is taken
away, and nothing else matters. -/
theorem Step.mem_processing (h : Step now q e q') :
    k ∈ q'.processing ↔ (∃ g, e = .handOut g k) ∨ k ∈ q.processing ∧ e ≠ .done k := by
  cases h with
  | add x => simp [(adds_add q x).processing]
  | addAfter x d => simp [(adds_addAfter q x now d).processing]
  | addRateLimited x =>
    rcases addRateLimited_cases q x now with ⟨l, -, h⟩ | ⟨d, l, -, h⟩ <;> rw [h]
    · simp
    · simp [(adds_addAfter { q with limiter := l } x now d).processing]
  | @handOut g x q' h =>
    rcases ask_cases q g with ⟨-, h'⟩ | ⟨-, -, h'⟩ | ⟨-, x', ks, -, h'⟩ <;>
      rw [h'] at h <;> cases h
    simp [eq_comm]
  | @turnAway g a q' h ha =>
    rcases ask_cases q g with ⟨-, h'⟩ | ⟨-, -, h'⟩ | ⟨-, x', ks, -, h'⟩ <;>
      rw [h'] at h <;> cases h
    · simp
    · simp
    · exact absurd rfl (ha x')
  | done x =>
    rcases done_cases q x with ⟨-, h⟩ | ⟨-, h⟩ <;> rw [h] <;> simp [eq_comm]
  | fire => simp [(adds_runTimer q now).processing]
  | shutDown => simp
  | leave | forget | tick => simp [WorkQueue.leave, WorkQueue.forget, WorkQueue.tick]

/-! ## Runs -/

/-- What holds right after a deed of a run and is kept by all that is done since holds at the
end. -/
theorem Run.since {τ σ : History} {t : Instant} {motive : History → WorkQueue L → Prop}
    (h : Run q₀ (τ ++ (t, e) :: σ) q)
    (hfirst : ∀ {q₁ q₂}, Run q₀ τ q₁ → Step t q₁ e q₂ → motive [] q₂)
    (hnext : ∀ {σ q₁ q₂ now e'}, Run q₀ (τ ++ (t, e) :: σ) q₁ → Step now q₁ e' q₂ →
      motive σ q₁ → motive (σ ++ [(now, e')]) q₂) : motive σ q := by
  generalize hρ : τ ++ (t, e) :: σ = ρ at h
  induction h generalizing σ with
  | start => simp at hρ
  | @next ρ q₁ q₂ now e' hrun _ hs ih =>
    rcases List.eq_nil_or_concat σ with rfl | ⟨σ, e'', rfl⟩
    · obtain ⟨rfl, he⟩ := List.append_inj' hρ rfl
      cases he
      exact hfirst hrun hs
    · rw [List.concat_eq_append, ← List.cons_append, ← List.append_assoc] at hρ
      obtain ⟨rfl, he⟩ := List.append_inj' hρ rfl
      cases he
      rw [List.concat_eq_append]
      exact hnext hrun hs (ih rfl)

/-- A key was done once for each time it was handed out, but for the hand-outs that last. -/
theorem Run.handOuts_eq (h : Run q₀ τ q) (k : Key) :
    handOuts k τ = dones k τ + (held τ).count k := by
  induction h with
  | start => rfl
  | @next τ q q' now e _ hdone hs ih =>
    rw [held_concat]
    unfold handOuts dones at ih ⊢
    simp only [List.countP_append, List.countP_singleton, ih]
    cases e with
    | handOut g x =>
      rw [Deed.hold, List.count_cons]
      simp
      omega
    | done x =>
      have hx : x ∈ held τ := hdone x rfl
      by_cases hxk : x = k
      · subst hxk
        have hpos : 0 < (held τ).count x := List.count_pos_iff.2 hx
        have herase : ((held τ).erase x).count x = (held τ).count x - 1 := List.count_erase_self
        simp [Deed.hold]
        omega
      · have herase : ((held τ).erase x).count k = (held τ).count k :=
          List.count_erase_of_ne (Ne.symm hxk)
        simp [Deed.hold, hxk, herase]
    | add | addAfter | addRateLimited | turnAway | leave | forget | shutDown | tick | fire =>
      simp [Deed.hold]

/-- One more deed makes of the limiter what it makes of what the others made. -/
@[simp] theorem limiterAfter_concat (l : L) (τ : History) (now : Instant) (e : Deed) :
    limiterAfter l (τ ++ [(now, e)]) = e.limit now (limiterAfter l τ) := by
  simp [limiterAfter, List.foldl_append]

/-- The limiter of a queue is what all deeds made of it. -/
theorem Run.limiter_eq (h : Run q₀ τ q) : q.limiter = limiterAfter q₀.limiter τ := by
  induction h with
  | start => rfl
  | next _ _ hs ih => rw [limiterAfter_concat, hs.limiter_eq, ih]

/-- The limiter of a queue has come of delays and resets, and of nothing else. -/
theorem Run.becomes (h : Run q₀ τ q) : Limiter.Becomes q₀.limiter q.limiter := by
  induction h with
  | start => exact .refl
  | next _ _ hs ih => exact ih.trans hs.becomes

/-- A queue shuts down if it was told to, and does not take that back. -/
theorem Run.shuttingDown_iff (h : Run q₀ τ q) (hopen : q₀.shuttingDown = false) :
    q.shuttingDown = true ↔ ∃ t, (t, Deed.shutDown) ∈ τ := by
  induction h with
  | start => simp [hopen]
  | @next τ q q' now e _ _ hs ih =>
    by_cases he : e = .shutDown
    · subst he
      cases hs
      simp
    · rw [hs.shuttingDown_eq he, ih]
      simp [Ne.symm he]

/-- A queue that no one shut down does not shut down. -/
theorem Run.not_shuttingDown (h : Run q₀ τ q) (hopen : q₀.shuttingDown = false)
    (hτ : ∀ t, (t, Deed.shutDown) ∉ τ) : q.shuttingDown = false := by
  rw [Bool.eq_false_iff, Ne, h.shuttingDown_iff hopen]
  exact fun ⟨t, ht⟩ => hτ t ht

end

end Prewarm.WorkQueue
