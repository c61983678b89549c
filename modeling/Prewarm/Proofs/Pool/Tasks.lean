import Prewarm.Pool
import Prewarm.Proofs.WorkQueue.Operations

/-!
# What the tasks of a pool do

What each task of a pool makes of its queue and of where those who take keys stand. Only two tasks
touch both: one who asks for a key (`askFor_cases`), and one who hands a key back and, if it works
on keys without end, asks for the next (`finish_cases`). What is seen of them from outside is who
begins to work on which key, and how that work ends (`Deed`).
-/

namespace Prewarm.Pool

section
variable {ω ρ L : Type} {c : Craft ω ρ} {p : Pool ω ρ L} {g : GetterId} {r : Role}

/-- Something that is seen of those who work on keys. -/
inductive Deed where
  /-- Someone is handed a key to work on. -/
  | begun (g : GetterId) (k : Key)
  /-- The work of someone on a key has ended. -/
  | ended (g : GetterId) (k : Key) (o : Outcome)
  deriving DecidableEq

/-- The key that someone works on. -/
def worksOn? (p : Pool ω ρ L) (g : GetterId) : Option Key :=
  (p.takers.get? g).bind (fun t => match t.stand with
    | .working k => some k
    | _ => none)

theorem exists_taker {k : Key} (h : p.worksOn? g = some k) :
    ∃ r, p.takers.get? g = some ⟨r, .working k⟩ := by
  obtain ⟨⟨r, stand⟩, ht, hs⟩ := Option.bind_eq_some_iff.1 h
  cases stand with
  | working k' =>
    cases hs
    exact ⟨r, ht⟩
  | asking | ended | crashed => cases hs

/-- What is seen of a task that makes `p'` of a pool. -/
def deeds (p p' : Pool ω ρ L) : Task ρ → List Deed
  | .ask g =>
    match p.worksOn? g with
    | none => (p'.worksOn? g).toList.map (.begun g)
    | some _ => []
  | .finish g o =>
    match p.worksOn? g with
    | none => []
    | some k => .ended g k o :: (p'.worksOn? g).toList.map (.begun g)
  | _ => []

/-- Someone has gone on to another stand. -/
theorem worksOn?_insert {p' : Pool ω ρ L} {t : Taker} (h : p'.takers = p.takers.insert g t)
    (x : GetterId) :
    p'.worksOn? x =
      if x = g then (match t.stand with
        | .working k => some k
        | _ => none)
      else p.worksOn? x := by
  unfold worksOn?
  rw [h, Table.get?_insert]
  split
  · rfl
  · rfl

/-- One who is to work on a key gets one and works on it, or gets none. -/
theorem askFor_cases (c : Craft ω ρ) (p : Pool ω ρ L) (g : GetterId) (hr : r ≠ .keeper) :
    (askFor c p g r).nextId = p.nextId ∧ (askFor c p g r).queue = (p.queue.ask g).2 ∧
    ((∃ k, (p.queue.ask g).1 = .key k ∧
        (askFor c p g r).takers = p.takers.insert g ⟨r, .working k⟩) ∨
      (∀ k, (p.queue.ask g).1 ≠ .key k) ∧
        ((askFor c p g r).takers = p.takers ∨
          p.queue.shuttingDown = true ∧
            (askFor c p g r).takers = p.takers.insert g ⟨r, .ended false⟩)) := by
  have hclosed : (p.queue.ask g).1 = .closed → p.queue.shuttingDown = true := by
    rcases WorkQueue.ask_cases p.queue g with ⟨hs, -⟩ | ⟨-, -, he⟩ | ⟨-, k, ks, -, he⟩
    · exact fun _ => hs
    · simp [he]
    · simp [he]
  unfold askFor
  split
  · next q h =>
    rw [h]
    exact ⟨rfl, rfl, .inr ⟨nofun, .inl rfl⟩⟩
  · next q h =>
    rw [h] at hclosed ⊢
    cases r with
    | keeper => exact absurd rfl hr
    | helper | worker => exact ⟨rfl, rfl, .inr ⟨nofun, .inr ⟨hclosed rfl, rfl⟩⟩⟩
  · next k q h =>
    rw [h]
    cases r with
    | keeper => exact absurd rfl hr
    | helper | worker => exact ⟨rfl, rfl, .inl ⟨k, rfl, rfl⟩⟩

/-- Who works on what stays the same if the one who asks gets no key. -/
theorem worksOn?_askFor_of_no_key (hr : r ≠ .keeper) (hg : p.worksOn? g = none)
    (hno : ∀ k, (p.queue.ask g).1 ≠ .key k) (x : GetterId) :
    (askFor c p g r).worksOn? x = p.worksOn? x := by
  obtain ⟨-, -, ⟨k, hk, -⟩ | ⟨-, ht | ⟨-, ht⟩⟩⟩ := askFor_cases c p g hr
  · exact absurd hk (hno k)
  · rw [worksOn?, ht, worksOn?]
  · rw [worksOn?_insert ht]
    split
    · next hx => rw [hx, hg]
    · rfl

/-- Only one who has not been handed a key yet asks for one. -/
theorem perform_ask_cases [Limiter L] (c : Craft ω ρ) (p : Pool ω ρ L) (g : GetterId) :
    (∃ r, p.takers.get? g = some ⟨r, .asking⟩ ∧ perform c p (.ask g) = askFor c p g r) ∨
    (∀ r, p.takers.get? g ≠ some ⟨r, .asking⟩) ∧ perform c p (.ask g) = p := by
  unfold perform
  dsimp only
  split
  · next r hg => exact .inl ⟨r, hg, rfl⟩
  · next hno => exact .inr ⟨hno, rfl⟩

@[simp] theorem deeds_ask_self (p : Pool ω ρ L) (g : GetterId) : p.deeds p (.ask g) = [] := by
  cases h : p.worksOn? g <;> simp [deeds, h]

/-- The beginning of work changes the world, and neither the queue nor who works on what. -/
theorem perform_start_eq [Limiter L] (c : Craft ω ρ) (p : Pool ω ρ L) (g : GetterId) (k : Key) :
    (perform c p (.start g k)).queue = p.queue ∧ (perform c p (.start g k)).takers = p.takers := by
  unfold perform
  dsimp only
  split
  · exact ⟨rfl, rfl⟩
  · exact ⟨rfl, rfl⟩

/-! ## Time -/

@[simp] theorem askFor_now (c : Craft ω ρ) (p : Pool ω ρ L) (g : GetterId) (r : Role) :
    (askFor c p g r).now = p.now := by
  unfold askFor
  split
  · rfl
  · cases r <;> rfl
  · cases r <;> rfl

@[simp] theorem finish_now [Limiter L] (c : Craft ω ρ) (p : Pool ω ρ L) (g : GetterId)
    (o : Outcome) :
    (finish c p g o).now = p.now := by
  unfold finish tryQueue
  split
  · next r k _ =>
    dsimp only
    obtain ⟨res, q⟩ := p.queue.handBack k o p.now
    cases res with
    | error e => rfl
    | ok u =>
      cases r with
      | worker => exact askFor_now ..
      | keeper | helper => rfl
  · rfl

/-- No time passes while a task runs. -/
@[simp] theorem perform_now [Limiter L] (c : Craft ω ρ) (p : Pool ω ρ L) (t : Task ρ) :
    (perform c p t).now = p.now := by
  cases t with
  | ask g =>
    unfold perform
    dsimp only
    split
    · exact askFor_now ..
    · rfl
  | start g k =>
    unfold perform
    dsimp only
    split <;> rfl
  | resume | timer => rfl
  | finish g o => exact finish_now ..

/-! ## The world -/

/-- A property of the world that work keeps, and that those who keep keys keep, is kept by every
task. -/
theorem perform_world [Limiter L] {P : ω → Prop} (p : Pool ω ρ L) (t : Task ρ)
    (hstart : ∀ now k w, P w → P (c.start now k w).2)
    (hresume : ∀ now k rest w, P w → P (c.resume now k rest w).2)
    (hkept : ∀ now g k? w, P w → P (c.kept now g k? w)) (h : P p.world) :
    P (perform c p t).world := by
  have hask : ∀ (p : Pool ω ρ L) g r, P p.world → P (askFor c p g r).world := by
    intro p g r h
    unfold askFor
    split
    · exact h
    · cases r with
      | keeper => exact hkept _ _ _ _ h
      | helper | worker => exact h
    · cases r with
      | keeper => exact hkept _ _ _ _ h
      | helper | worker => exact h
  cases t with
  | ask g =>
    unfold perform
    dsimp only
    split
    · exact hask p g _ h
    · exact h
  | start g k =>
    have hw := hstart p.now k p.world h
    unfold perform
    dsimp only
    split
    · next heq =>
      rw [heq] at hw
      exact hw
    · next heq =>
      rw [heq] at hw
      exact hw
  | resume g k rest => exact hresume p.now k rest p.world h
  | finish g o =>
    unfold perform finish tryQueue
    dsimp only
    split
    · next r k _ =>
      obtain ⟨res, q⟩ := p.queue.handBack k o p.now
      cases res with
      | error e => exact h
      | ok u =>
        cases r with
        | worker => exact hask _ g _ h
        | keeper | helper => exact h
    · exact h
  | timer => exact h

/-! ## Handing back -/

/-- Work that no one does does not end. -/
theorem finish_eq_self [Limiter L] (c : Craft ω ρ) (o : Outcome) (h : p.worksOn? g = none) :
    finish c p g o = p := by
  unfold finish
  split
  · next r k hg => simp [worksOn?, hg] at h
  · rfl

/-- One who works on a key hands it back when the work has ended. It breaks off if the key cannot be
handed back, and asks for the next key if it works on keys without end. -/
theorem finish_cases [Limiter L] {k : Key} (c : Craft ω ρ) (o : Outcome)
    (hg : p.takers.get? g = some ⟨r, .working k⟩) :
    (∃ e, (p.queue.handBack k o p.now).1 = .error e) ∨
    (p.queue.handBack k o p.now).1 = .ok () ∧ ∃ p' : Pool ω ρ L, p'.nextId = p.nextId ∧
      p'.queue = (p.queue.handBack k o p.now).2 ∧
      (r = .worker ∧ p'.takers = p.takers.insert g ⟨r, .asking⟩ ∧ finish c p g o = askFor c p' g r ∨
        r ≠ .worker ∧ p'.takers = p.takers.insert g ⟨r, .ended true⟩ ∧ finish c p g o = p') := by
  unfold finish tryQueue
  rw [hg]
  dsimp only
  obtain ⟨res, q⟩ := p.queue.handBack k o p.now
  cases res with
  | error e => exact .inl ⟨e, rfl⟩
  | ok u =>
    refine .inr ⟨rfl, ?_⟩
    cases r with
    | worker =>
      exact ⟨({ p with queue := q }.gather).place g ⟨.worker, .asking⟩, rfl, rfl,
        .inl ⟨rfl, rfl, rfl⟩⟩
    | keeper =>
      exact ⟨({ p with queue := q }.gather).place g ⟨.keeper, .ended true⟩, rfl, rfl,
        .inr ⟨nofun, rfl, rfl⟩⟩
    | helper =>
      exact ⟨({ p with queue := q }.gather).place g ⟨.helper, .ended true⟩, rfl, rfl,
        .inr ⟨nofun, rfl, rfl⟩⟩

/-- One whose key can be handed back hands it back, and perhaps asks for the next one then. -/
theorem finish_queue [Limiter L] {k : Key} {o : Outcome} (c : Craft ω ρ)
    (hg : p.worksOn? g = some k) (hok : (p.queue.handBack k o p.now).1 = .ok ()) :
    (finish c p g o).queue = (p.queue.handBack k o p.now).2 ∨
      (finish c p g o).queue = ((p.queue.handBack k o p.now).2.ask g).2 := by
  obtain ⟨r, hr⟩ := exists_taker hg
  rcases finish_cases c o hr with ⟨e, he⟩ | ⟨-, p', -, hq, ⟨rfl, -, hf⟩ | ⟨-, -, hf⟩⟩
  · rw [hok] at he
    cases he
  · obtain ⟨-, hask, -⟩ := askFor_cases (r := .worker) c p' g (by decide)
    rw [hf, hask, hq]
    exact .inr rfl
  · rw [hf, hq]
    exact .inl rfl

/-- Work is seen to end when it is handed back. -/
theorem of_mem_deeds_ended {p' : Pool ω ρ L} {t : Task ρ} {k : Key} {o : Outcome}
    (h : .ended g k o ∈ p.deeds p' t) : t = .finish g o ∧ p.worksOn? g = some k := by
  cases t with
  | ask x =>
    unfold deeds at h
    dsimp only at h
    split at h
    · obtain ⟨y, -, he⟩ := List.mem_map.1 h
      cases he
    · cases h
  | finish x o' =>
    unfold deeds at h
    dsimp only at h
    split at h
    · cases h
    · next y hy =>
      rcases List.mem_cons.1 h with he | h
      · cases he
        exact ⟨rfl, hy⟩
      · obtain ⟨y, -, he⟩ := List.mem_map.1 h
        cases he
  | start | resume | timer => cases h

/-- Only one who hands a key back counts for the limiter, and the end of the work is seen then. -/
theorem perform_limiter [Limiter L] (c : Craft ω ρ) {t : Task ρ}
    (ht : ∀ g o, t = .finish g o → p.worksOn? g = none) :
    (perform c p t).queue.limiter = p.queue.limiter ∧
      ∀ d ∈ p.deeds (perform c p t) t, ∃ g k, d = .begun g k := by
  have hask : ∀ g r, (askFor c p g r).queue.limiter = p.queue.limiter := by
    intro g r
    have hq : (askFor c p g r).queue = (p.queue.ask g).2 := by
      unfold askFor
      split <;> next h => rw [h]; cases r <;> rfl
    rw [hq, WorkQueue.ask_limiter]
  cases t with
  | ask g =>
    refine ⟨?_, fun d hd => ?_⟩
    · rcases perform_ask_cases c p g with ⟨r, -, he⟩ | ⟨-, he⟩ <;> rw [he]
      exact hask g r
    · unfold deeds at hd
      dsimp only at hd
      split at hd
      · obtain ⟨k, -, rfl⟩ := List.mem_map.1 hd
        exact ⟨g, k, rfl⟩
      · cases hd
  | start g k => exact ⟨congrArg _ (perform_start_eq c p g k).1, nofun⟩
  | resume => exact ⟨rfl, nofun⟩
  | finish g o =>
    have hnone := ht g o rfl
    simp [perform, finish_eq_self c o hnone, deeds, hnone]
  | timer => exact ⟨(WorkQueue.adds_runTimer p.queue p.now).limiter, nofun⟩

end

end Prewarm.Pool
