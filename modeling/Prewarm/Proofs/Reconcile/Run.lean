import Prewarm.Controller
import Prewarm.Proofs.Reconcile.Course

/-!
# Runs of a reconciler

Work on several keys is under way at once, and shares one set of expectations. A `Run` is whatever
can happen then: work on a key begins, with any content of the stores; what it asks is answered, by
the expectations if it asks them and with anything otherwise (`Answers`); it breaks off while others
are asked; it ends; and time passes. Its one rule is what the queue promises: no two pieces of work
on a key are under way at once.
-/

namespace Prewarm.Reconcile

/-- The reading of the clock, what is expected, and what is left of the work under way. -/
structure State where
  now : Instant
  expectations : Expectations := .standard
  work : Table Key Rest := .empty

/-- Whether a question goes to others than the expectations. -/
def Query.isOutside : Query → Bool
  | .isPending .. | .expect .. | .observed _ => false
  | _ => true

/-- Whether a question can get an answer, and the expectations can be so after it. -/
def Answers (now : Instant) (x : Expectations) : (q : Query) → q.Answer → Expectations → Prop
  | .isPending k v, b, x' => (b, x') = x.isPending k v now
  | .expect k v, _, x' => x' = x.expect k v now
  | .observed k, _, x' => x' = x.observed k
  | .secret .., _, x' | .digest .., _, x' | .create .., _, x' | .deleteCollection .., _, x'
  | .publish .., _, x' => x' = x

/-- The controller answers in this way, whoever answers its requests. -/
theorem answers_controller {χ : Type} (h : Host χ) (now : Instant) (q : Query)
    (s : Controller.Surroundings χ) :
    Answers now s.expectations q (Controller.Surroundings.answer h now q s).1
      (Controller.Surroundings.answer h now q s).2.expectations := by
  cases q with
  | isPending k v | expect k v | observed k => rfl
  | secret | digest | create | deleteCollection | publish => rfl

/-- Something that is seen of a reconciler. -/
inductive Deed where
  /-- Work on a key begins and finds something in the stores. -/
  | begun (k : Key) (f : Finding)
  /-- A question of work on a key is answered. -/
  | answered (k : Key) (q : Query) (a : q.Answer)
  /-- Work on a key breaks off. -/
  | brokenOff (k : Key)
  | ended (k : Key) (r : Except Failure Unit)

/-- The key that is worked on. -/
def Deed.key : Deed → Key
  | begun k _ | answered k _ _ | brokenOff k | ended k _ => k

/-- What was seen, the first first, each with its instant. -/
abbrev History := List (Instant × Deed)

/-- Something that happens to a reconciler. -/
inductive Step (s : State) : Deed → State → Prop
  | begin {k : Key} (c : Context) :
      s.work.get? k = none →
      Step s (.begun k (found c k)) { s with work := s.work.insert k (dialogue c k) }
  | answer {k : Key} {q : Query} {next : q.Answer → Rest} {a : q.Answer} {x : Expectations} :
      s.work.get? k = some (.ask q next) → Answers s.now s.expectations q a x →
      Step s (.answered k q a) { s with expectations := x, work := s.work.insert k (next a) }
  | breakOff {k : Key} {q : Query} {next : q.Answer → Rest} :
      s.work.get? k = some (.ask q next) → q.isOutside = true →
      Step s (.brokenOff k) { s with work := s.work.erase k }
  | finish {k : Key} {r : Except Failure Unit} :
      s.work.get? k = some (.done r) → Step s (.ended k r) { s with work := s.work.erase k }

/-- A history of a reconciler that begins without expectations, with the state it leads to. -/
inductive Run : History → State → Prop
  | start (now : Instant) : Run [] { now := now }
  | next {τ : History} {s s' : State} {e : Deed} :
      Run τ s → Step s e s' → Run (τ ++ [(s.now, e)]) s'
  | pass {τ : History} {s : State} {now : Instant} :
      Run τ s → s.now.nanos ≤ now.nanos → Run τ { s with now := now }

section
variable {s s' : State} {e : Deed} {k k' : Key} {q : Query} {a : q.Answer} {x x' : Expectations}
  {now : Instant} {τ : History}

/-! ## Answers -/

theorem Answers.eq_of_isOutside (h : Answers now x q a x') (hq : q.isOutside = true) : x' = x := by
  cases q with
  | isPending | expect | observed => cases hq
  | secret | digest | create | deleteCollection | publish => exact h

theorem Answers.lifetime (h : Answers now x q a x') : x'.lifetime = x.lifetime := by
  cases q with
  | isPending k v => exact (congrArg (·.2.lifetime) h).trans (x.lifetime_isPending k v now)
  | expect k v =>
    rw [show x' = x.expect k v now from h]
    rfl
  | observed k =>
    rw [show x' = x.observed k from h]
    rfl
  | secret | digest | create | deleteCollection | publish =>
    exact congrArg Expectations.lifetime h

/-- Work on a key asks the expectations about this key only. -/
theorem Course.asks {next : q.Answer → Rest} (h : Course k (.ask q next)) :
    (∃ v, q = .isPending k v) ∨ (∃ v, q = .expect k v) ∨ q = .observed k ∨ q.isOutside = true := by
  cases h with
  | observed => exact .inr (.inr (.inl rfl))
  | isPending => exact .inl ⟨_, rfl⟩
  | expect => exact .inr (.inl ⟨_, rfl⟩)
  | creating h => cases h <;> exact .inr (.inr (.inr rfl))
  | closing h => cases h <;> exact .inr (.inr (.inr rfl))

/-- What work on a key asks leaves the expectations for other keys alone. -/
theorem Answers.get?_pending {next : q.Answer → Rest} (h : Answers now x q a x')
    (hc : Course k (.ask q next)) (hk : k' ≠ k) : x'.pending.get? k' = x.pending.get? k' := by
  rcases hc.asks with ⟨v, rfl⟩ | ⟨v, rfl⟩ | rfl | hq
  · exact (congrArg (·.2.pending.get? k') h).trans (x.get?_isPending v now hk)
  · rw [show x' = x.expect k v now from h]
    exact Table.get?_insert_of_ne hk ..
  · rw [show x' = x.observed k from h]
    exact Table.get?_erase_of_ne hk ..
  · rw [h.eq_of_isOutside hq]

/-! ## What every run keeps -/

/-- All work under way takes its course, and children are expected for the standard lifetime. -/
structure Sound (s : State) : Prop where
  course : ∀ k d, s.work.get? k = some d → Course k d
  lifetime : s.expectations.lifetime = Expectations.standardLifetime

/-- Work on one key has gone on. -/
theorem Sound.insert (h : Sound s) {d : Rest} (hd : Course k d)
    (hx : x.lifetime = s.expectations.lifetime) :
    Sound { s with expectations := x, work := s.work.insert k d } := by
  refine ⟨fun k' d' hk' => ?_, hx.trans h.lifetime⟩
  rw [Table.get?_insert] at hk'
  split at hk'
  · next hkk =>
    cases hk'
    exact hkk ▸ hd
  · exact h.course k' d' hk'

/-- Work on one key is over. -/
theorem Sound.erase (h : Sound s) (k : Key) : Sound { s with work := s.work.erase k } := by
  refine ⟨fun k' d' hk' => ?_, h.lifetime⟩
  rw [Table.get?_erase] at hk'
  split at hk'
  · cases hk'
  · exact h.course k' d' hk'

theorem Sound.step (h : Sound s) (hs : Step s e s') : Sound s' := by
  cases hs with
  | begin c _ => exact h.insert (opening_dialogue c _).course rfl
  | answer hk ha => exact h.insert ((h.course _ _ hk).next _) ha.lifetime
  | breakOff | finish => exact h.erase _

theorem Run.sound (h : Run τ s) : Sound s := by
  induction h with
  | start now => exact ⟨fun k d h => (by cases h), rfl⟩
  | next _ hs ih => exact ih.step hs
  | pass _ _ ih => exact ⟨ih.course, ih.lifetime⟩

/-- What happens to work on another key leaves the work on a key and its expectation alone. -/
theorem Step.of_ne_key (hs : Step s e s') (h : Sound s) (hk : k ≠ e.key) :
    s'.work.get? k = s.work.get? k ∧
    s'.expectations.pending.get? k = s.expectations.pending.get? k := by
  cases hs with
  | begin c _ => exact ⟨Table.get?_insert_of_ne hk .., rfl⟩
  | answer hk' ha =>
    exact ⟨Table.get?_insert_of_ne hk .., ha.get?_pending (h.course _ _ hk') hk⟩
  | breakOff | finish => exact ⟨Table.get?_erase_of_ne hk .., rfl⟩

/-- No time passes in a step. -/
theorem Step.now_eq (hs : Step s e s') : s'.now = s.now := by
  cases hs <;> rfl

/-- What holds right after something that was seen and is kept by all that happens since holds at
the end. -/
theorem Run.since {σ : History} {t : Instant} {motive : History → State → Prop}
    (h : Run (τ ++ (t, e) :: σ) s)
    (hfirst : ∀ {s₀ s₁}, Run τ s₀ → s₀.now = t → Step s₀ e s₁ → motive [] s₁)
    (hnext : ∀ {σ s₁ s₂ e'}, Run (τ ++ (t, e) :: σ) s₁ → Step s₁ e' s₂ → motive σ s₁ →
      motive (σ ++ [(s₁.now, e')]) s₂)
    (hpass : ∀ {σ s₁} {now : Instant}, s₁.now.nanos ≤ now.nanos → motive σ s₁ →
      motive σ { s₁ with now := now }) : motive σ s := by
  generalize hρ : τ ++ (t, e) :: σ = ρ at h
  induction h generalizing σ with
  | start => simp at hρ
  | @next ρ s₁ s₂ e' hrun hs ih =>
    rcases List.eq_nil_or_concat σ with rfl | ⟨σ, e'', rfl⟩
    · obtain ⟨rfl, he⟩ := List.append_inj' hρ rfl
      cases he
      exact hfirst hrun rfl hs
    · rw [List.concat_eq_append, ← List.cons_append, ← List.append_assoc] at hρ
      obtain ⟨rfl, he⟩ := List.append_inj' hρ rfl
      cases he
      rw [List.concat_eq_append]
      exact hnext hrun hs (ih rfl)
  | pass _ hnow ih => exact hpass hnow (ih hρ)

end

end Prewarm.Reconcile
