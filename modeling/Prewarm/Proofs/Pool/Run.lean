import Prewarm.Proofs.Pool.Tasks
import Prewarm.Proofs.WorkQueue.Run

/-!
# Runs of a pool

A pool begins with its workers in line and a queue without keys. A `Run` is whatever can happen to
it then, in any order: others put keys on the queue, forget keys or shut the queue down, anything
that can run does so whatever its place in the line, time passes, and what the work reads and
answers to it changes. What is seen of a run is what is done with the queue: one who gets a key has
asked for it (`askDeeds`), and one who hands a key back says that it is done (`handBackDeeds`).

The work on keys is followed by its jobs (`jobs`): from the moment a key is taken its taker has one
job, which stands in line or rests, until the key is handed back.
-/

namespace Prewarm

/-- Work on a key that someone took. -/
structure Job where
  taker : GetterId
  /-- The key while the work goes on, none when it has ended and the key is to be handed back. -/
  key : Option Key

/-- The work that a task is about. -/
def Task.job? {ρ : Type} : Task ρ → Option Job
  | .start g k | .resume g k _ => some ⟨g, some k⟩
  | .finish g _ => some ⟨g, none⟩
  | .ask _ | .timer => none

/-- The work that rests. -/
def Resting.job {ρ : Type} (r : Resting ρ) : Job := ⟨r.taker, some r.key⟩

/-- Whether a deed is one of others than those who take keys and the timer. -/
def WorkQueue.Deed.isOutside : WorkQueue.Deed → Bool
  | .add _ | .addAfter .. | .addRateLimited _ | .forget _ | .shutDown => true
  | .handOut .. | .turnAway _ | .leave _ | .done _ | .tick | .fire => false

namespace Pool

section
variable {ω ρ L : Type}

/-- The work on keys that were taken and not handed back. -/
def jobs (p : Pool ω ρ L) : List Job :=
  p.line.filterMap Task.job? ++ p.resting.map Resting.job

/-- The work that goes on, by taker and key. -/
def underWay (p : Pool ω ρ L) : List (GetterId × Key) :=
  p.jobs.filterMap fun j => j.key.map fun k => (j.taker, k)

theorem mem_underWay {p : Pool ω ρ L} {g : GetterId} {k : Key} :
    (g, k) ∈ p.underWay ↔ ⟨g, some k⟩ ∈ p.jobs := by
  simp only [underWay, List.mem_filterMap, Option.map_eq_some_iff, Prod.mk.injEq]
  constructor
  · rintro ⟨⟨g, key⟩, hj, k, rfl, rfl, rfl⟩
    exact hj
  · exact fun hj => ⟨_, hj, k, rfl, rfl, rfl⟩

/-- Work that has ended and is not handed back stands in line for that. -/
theorem mem_jobs_none {p : Pool ω ρ L} {g : GetterId} :
    ⟨g, none⟩ ∈ p.jobs ↔ ∃ o, .finish g o ∈ p.line := by
  simp only [jobs, List.mem_append, List.mem_filterMap, List.mem_map]
  constructor
  · rintro (⟨t, ht, hj⟩ | ⟨r, -, hj⟩)
    · cases t with
      | finish g' o =>
        cases hj
        exact ⟨o, ht⟩
      | ask | start | resume | timer => cases hj
    · cases hj
  · exact fun ⟨o, ho⟩ => .inl ⟨_, ho, rfl⟩

/-! ## Deeds -/

/-- What one who asked for a key did with the queue, by where it stands after that. -/
def askDeeds (p : Pool ω ρ L) (g : GetterId) : List WorkQueue.Deed :=
  match (p.takers.get? g).map Taker.stand with
  | some (.working k) => [.handOut g k]
  | some .asking | some (.ended false) => [.turnAway g]
  | _ => []

/-- What one who hands a key back does with the queue. -/
def handBackDeeds (k : Key) (o : Outcome) : List WorkQueue.Deed :=
  if o.retries then [.done k, .addRateLimited k] else [.forget k, .done k]

/-- What is done with the queue in a task that makes `p'` of a pool. -/
def queueDeeds (p p' : Pool ω ρ L) : Task ρ → List WorkQueue.Deed
  | .ask g =>
    match (p.takers.get? g).map Taker.stand with
    | some .asking => p'.askDeeds g
    | _ => []
  | .finish g o =>
    match p.worksOn? g with
    | some k => handBackDeeds k o ++ p'.askDeeds g
    | none => []
  | .timer => [.fire]
  | .start .. | .resume .. => []

/-! ## Runs -/

/-- A pool of a number of workers, at least one, whose queue has no keys. -/
def opening (now : Instant) (name : String) (l : L) (w : ω) (n : Nat) : Pool ω ρ L :=
  ({ now := now, queue := .withLimiter name l, world := w } : Pool ω ρ L).joinWorkers (max n 1)

variable [Limiter L]

/-- Something that happens to a pool, with what is done with its queue. -/
inductive Step (c : Craft ω ρ) (p : Pool ω ρ L) : List WorkQueue.Deed → Pool ω ρ L → Prop
  | notify {d : WorkQueue.Deed} {q : WorkQueue L} :
      d.isOutside = true → WorkQueue.Step p.now p.queue d q →
      Step c p [d] ({ p with queue := q } : Pool ω ρ L).gather
  | perform {t : Task ρ} (before after : List (Task ρ)) {p' : Pool ω ρ L} :
      p.line = before ++ t :: after → p' = perform c { p with line := before ++ after } t →
      Step c p (p.queueDeeds p' t) p'
  | pass {now : Instant} : p.now.nanos ≤ now.nanos → Step c p [.tick] (p.moveTo now)
  | world (w : ω) : Step c p [] { p with world := w }

/-- What was done with the queue of a pool, with the pool it leads to. -/
inductive Run (c : Craft ω ρ) (p₀ : Pool ω ρ L) : WorkQueue.History → Pool ω ρ L → Prop
  | start : Run c p₀ [] p₀
  | next {τ : WorkQueue.History} {ds : List WorkQueue.Deed} {p p' : Pool ω ρ L} :
      Run c p₀ τ p → Step c p ds p' → Run c p₀ (τ ++ ds.map fun d => (p'.now, d)) p'

variable {c : Craft ω ρ} {p p' : Pool ω ρ L} {g : GetterId} {k : Key} {o : Outcome}
  {ds : List WorkQueue.Deed}

theorem Run.trans {p₀ : Pool ω ρ L} {τ σ : WorkQueue.History} (h : Run c p₀ τ p)
    (h' : Run c p σ p') : Run c p₀ (τ ++ σ) p' := by
  induction h' with
  | start => rwa [List.append_nil]
  | next _ hs ih =>
    rw [← List.append_assoc]
    exact ih.next hs

/-- The tasks that a pool runs by itself are steps of a run. -/
theorem Run.settle {p₀ : Pool ω ρ L} {τ : WorkQueue.History} (h : Run c p₀ τ p) (fuel : Nat) :
    ∃ τ', Run c p₀ τ' (settle c fuel p) := by
  induction fuel generalizing p τ with
  | zero => exact ⟨τ, h⟩
  | succ fuel ih =>
    unfold Pool.settle step?
    cases hline : p.line with
    | nil => exact ⟨τ, h⟩
    | cons t ts => exact ih (h.next (.perform [] ts hline rfl))

/-! ## What the steps make of the work under way -/

omit [Limiter L] in
/-- Those who wait and the timer are not at work on a key. -/
@[simp] theorem jobs_gather (p : Pool ω ρ L) : p.gather.jobs = p.jobs := by
  have hask : ∀ gs : List GetterId, (gs.map Task.ask).filterMap (Task.job? (ρ := ρ)) = [] := by
    intro gs
    simp [List.filterMap_map, Task.job?, Function.comp_def]
  have htimer : ∀ n : Nat, (List.replicate n Task.timer).filterMap (Task.job? (ρ := ρ)) = [] := by
    intro n
    simp [Task.job?]
  unfold jobs gather
  simp only [List.filterMap_append, hask, htimer, List.append_nil]

omit [Limiter L] in
/-- A task in line is the work it is about, wherever it stands. -/
theorem jobs_insert (p : Pool ω ρ L) (before after : List (Task ρ)) (t : Task ρ) :
    ({ p with line := before ++ t :: after } : Pool ω ρ L).jobs.Perm
      (t.job?.toList ++ ({ p with line := before ++ after } : Pool ω ρ L).jobs) := by
  unfold jobs
  simp only [List.filterMap_append, List.filterMap_cons]
  cases t.job? with
  | none => exact .refl _
  | some j =>
    simp only [Option.toList_some, List.append_assoc, List.cons_append, List.nil_append]
    exact List.perm_middle

omit [Limiter L] in
/-- A task that comes to the end of the line. -/
theorem jobs_concat (p : Pool ω ρ L) (t : Task ρ) :
    ({ p with line := p.line ++ [t] } : Pool ω ρ L).jobs.Perm (t.job?.toList ++ p.jobs) := by
  have hjobs := jobs_insert p p.line [] t
  rwa [List.append_nil] at hjobs

omit [Limiter L] in
/-- Work that begins to rest. -/
theorem jobs_rest (p : Pool ω ρ L) (r : Resting ρ) :
    ({ p with resting := p.resting ++ [r] } : Pool ω ρ L).jobs.Perm (r.job :: p.jobs) := by
  unfold jobs
  rw [List.map_append, ← List.append_assoc]
  exact List.perm_append_singleton _ _

omit [Limiter L] in
/-- A key that is taken is a new job, and one who gets no key has none. -/
theorem jobs_askFor (c : Craft ω ρ) (p : Pool ω ρ L) (g : GetterId) :
    (∃ k, (p.queue.ask g).1 = .key k ∧
      (askFor c p g .worker).jobs.Perm (⟨g, some k⟩ :: p.jobs)) ∨
    (∀ k, (p.queue.ask g).1 ≠ .key k) ∧ (askFor c p g .worker).jobs = p.jobs := by
  unfold askFor
  split
  · next q h =>
    rw [h]
    exact .inr ⟨nofun, jobs_gather _⟩
  · next q h =>
    rw [h]
    exact .inr ⟨nofun, jobs_gather _⟩
  · next k q h =>
    rw [h]
    have hgather := jobs_gather { p with queue := q }
    have hstart := jobs_concat ({ p with queue := q } : Pool ω ρ L).gather (.start g k)
    exact .inl ⟨k, rfl, hstart.trans (.cons _ (.of_eq hgather))⟩

/-- A worker whose work has ended hands the key back, which is no work of anyone then. It asks for
the next key, or breaks off if the key cannot be handed back. -/
theorem finish_worker (c : Craft ω ρ) (o : Outcome)
    (hg : p.takers.get? g = some ⟨.worker, .working k⟩) :
    ∃ p' : Pool ω ρ L, p'.now = p.now ∧ p'.queue = (p.queue.handBack k o p.now).2 ∧
      p'.jobs = p.jobs ∧
      ((p.queue.handBack k o p.now).1 = .ok () ∧
          p'.takers = p.takers.insert g ⟨.worker, .asking⟩ ∧
          finish c p g o = askFor c p' g .worker ∨
        (∃ e, (p.queue.handBack k o p.now).1 = .error e) ∧
          p'.takers = p.takers.insert g ⟨.worker, .crashed⟩ ∧ finish c p g o = p') := by
  unfold finish tryQueue
  rw [hg]
  dsimp only
  obtain ⟨res, q⟩ := p.queue.handBack k o p.now
  have hjobs : ({ p with queue := q } : Pool ω ρ L).gather.jobs = p.jobs :=
    jobs_gather { p with queue := q }
  cases res with
  | error e =>
    exact ⟨({ p with queue := q }.gather).place g ⟨.worker, .crashed⟩, rfl, rfl, hjobs,
      .inr ⟨⟨e, rfl⟩, rfl, rfl⟩⟩
  | ok u =>
    exact ⟨({ p with queue := q }.gather).place g ⟨.worker, .asking⟩, rfl, rfl, hjobs,
      .inl ⟨rfl, rfl, rfl⟩⟩

omit [Limiter L] in
/-- Workers who join have no work yet, and ask for some. -/
theorem joinWorkers_spec (p : Pool ω ρ L) {m : Nat} (hid : p.nextId = m) (n : Nat) :
    (p.joinWorkers n).now = p.now ∧ (p.joinWorkers n).queue = p.queue ∧
    (p.joinWorkers n).jobs = p.jobs ∧
    ∀ g : Nat, (p.joinWorkers n).takers.get? g =
      if m ≤ g ∧ g < m + n then some ⟨.worker, .asking⟩ else p.takers.get? g := by
  induction n generalizing p m with
  | zero =>
    refine ⟨rfl, rfl, rfl, fun g => ?_⟩
    rw [if_neg (show ¬ (m ≤ g ∧ g < m + 0) by omega)]
    rfl
  | succ n ih =>
    have hid' : (p.join .worker).2.nextId = m + 1 := congrArg (· + 1) hid
    have hins : (p.join .worker).2.takers = p.takers.insert m ⟨.worker, .asking⟩ :=
      hid ▸ rfl
    have hjoin : (p.join .worker).2.jobs = p.jobs := by
      unfold jobs join
      simp [place, Task.job?]
    obtain ⟨hnow, hq, hjobs, htakers⟩ := ih (p.join .worker).2 hid'
    refine ⟨hnow, hq, hjobs.trans hjoin, fun g => ?_⟩
    rw [joinWorkers, htakers, hins, Table.get?_insert]
    by_cases hg : g = m
    · rw [if_neg (show ¬ (m + 1 ≤ g ∧ g < m + 1 + n) by omega), if_pos hg,
        if_pos (show m ≤ g ∧ g < m + (n + 1) by omega)]
    · have hiff : (m + 1 ≤ g ∧ g < m + 1 + n) ↔ m ≤ g ∧ g < m + (n + 1) := by omega
      simp only [hiff, if_neg hg]

omit [Limiter L] in
/-- Work whose rest is over stands in line again. -/
theorem jobs_moveTo (p : Pool ω ρ L) (now : Instant) : (p.moveTo now).jobs.Perm p.jobs := by
  have htask : ∀ rs : List (Resting ρ),
      (rs.map Resting.task).filterMap Task.job? = rs.map Resting.job := by
    intro rs
    rw [List.filterMap_map, ← List.filterMap_eq_map]
    rfl
  have hsplit := List.filter_append_perm (fun r : Resting ρ => r.wake.reached now) p.resting
  unfold moveTo onQueue
  rw [jobs_gather]
  unfold jobs
  simp only [List.filterMap_append, htask, List.append_assoc, ← List.map_append]
  exact .append_left _ (.map _ (by simpa using hsplit))

end

end Pool

end Prewarm
