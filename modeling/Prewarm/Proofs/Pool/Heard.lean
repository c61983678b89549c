import Prewarm.Proofs.Pool.Getters

/-!
# No key goes unheard

Those who wait for keys sleep until they are called, and calls and permits are not counted with the
keys they stand for. Still, once all that can run has run, no one waits while a key is on the queue
or the queue is shut (`no_key_unheard`), whoever left meanwhile, and keys are handed out in the
order in which they came on the queue, none of them to one who left.
-/

namespace Prewarm

namespace Pool

namespace Getting

section
variable {ω ρ L : Type} [Limiter L] {c : Craft ω ρ} {p p' p₀ : Pool ω ρ L} {g x : GetterId}
  {k : Key} {d : Option WorkQueue.Deed} {ks : List Key} {τ : WorkQueue.History} {now : Instant}
  {name : String} {l : L} {w : ω}

/-! ## Those who do not wait -/

/-- One who does not wait for a key stays where it stands. -/
theorem Step.get?_takers (hs : Step c p d p') (h : Keeping p) (hx : x < p.nextId)
    (hasks : ¬ p.Asks x) : x < p'.nextId ∧ p'.takers.get? x = p.takers.get? x := by
  cases hs with
  | act | pass => exact ⟨hx, rfl⟩
  | come =>
    have hne : x ≠ p.nextId := Nat.ne_of_lt hx
    exact ⟨Nat.lt_succ_of_lt hx, Table.get?_insert_of_ne hne ..⟩
  | @leave g hg =>
    have hne : x ≠ g := fun hxg => hasks (hxg ▸ hg)
    exact ⟨hx, Table.get?_erase_of_ne hne ..⟩
  | perform hp =>
    obtain ⟨before, after, -, hcases⟩ := h.performs_cases hp
    rcases hcases with ⟨g, w, ts, -, hg, -, rfl, hts⟩ | ⟨-, rfl⟩ | ⟨-, -, rfl⟩
    · have hne : x ≠ g := fun hxg => hasks (hxg ▸ hg)
      exact ⟨hx, (hts x).trans (if_neg hne)⟩
    · exact ⟨hx, rfl⟩
    · exact ⟨hx, rfl⟩

/-- Only one who comes asks anew, so one who has left is not there any more. -/
theorem Step.left (hs : Step c p d p') (h : Keeping p) (hd : d = some (.leave g)) :
    g < p'.nextId ∧ p'.takers.get? g = none := by
  cases hs with
  | act he _ =>
    cases hd
    rcases he with he | ⟨k, he⟩ <;> cases he
  | come | pass => cases hd
  | leave hg =>
    cases hd
    obtain ⟨t, ht, -⟩ := Option.map_eq_some_iff.1 hg
    exact ⟨(h.named g t ht).1, Table.get?_erase_self ..⟩
  | perform hp =>
    obtain ⟨before, after, -, hcases⟩ := h.performs_cases hp
    rcases hcases with ⟨g', w, ts, -, -, hask, -, -⟩ | ⟨rfl, -⟩ | ⟨-, hnone, -⟩
    · rw [hask] at hd
      unfold WorkQueue.askDeed at hd
      split at hd <;> cases hd
    · cases hd
    · cases hnone.symm.trans hd

/-- One who is handed a key keeps it. -/
theorem Step.got (hs : Step c p d p') (h : Keeping p) (hd : d = some (.handOut g k)) :
    ∃ r, p'.takers.get? g = some ⟨r, .ended true⟩ := by
  cases hs with
  | act he _ =>
    cases hd
    rcases he with he | ⟨k, he⟩ <;> cases he
  | come | pass | leave => cases hd
  | perform hp =>
    obtain ⟨before, after, -, hcases⟩ := h.performs_cases hp
    rcases hcases with ⟨g', w, ts, -, -, hask, rfl, hts⟩ | ⟨rfl, -⟩ | ⟨-, hnone, -⟩
    · rw [hask] at hd
      unfold WorkQueue.askDeed at hd
      split at hd <;> cases hd
      next hkey => exact ⟨.keeper, by rw [hts, if_pos rfl, hkey]; rfl⟩
    · cases hd
    · cases hnone.symm.trans hd

/-- Those who have left are not there any more, and those who were handed a key have ended. -/
structure Parted (τ : WorkQueue.History) (p : Pool ω ρ L) : Prop where
  left : ∀ t g, (t, .leave g) ∈ τ → g < p.nextId ∧ p.takers.get? g = none
  got : ∀ t g k, (t, .handOut g k) ∈ τ → ∃ r, p.takers.get? g = some ⟨r, .ended true⟩

theorem Parted.step (h : Parted τ p) (hp : Keeping p) (hs : Step c p d p') :
    Parted (τ ++ d.toList.map fun e => (p'.now, e)) p' := by
  refine ⟨fun t g hmem => ?_, fun t g k hmem => ?_⟩
  · rcases List.mem_append.1 hmem with hmem | hmem
    · obtain ⟨hg, hnone⟩ := h.left t g hmem
      obtain ⟨hg', hsame⟩ := hs.get?_takers hp hg (by simp [Asks, hnone])
      exact ⟨hg', hsame.trans hnone⟩
    · obtain ⟨e, he, heq⟩ := List.mem_map.1 hmem
      cases heq
      exact hs.left hp (Option.mem_toList.1 he)
  · rcases List.mem_append.1 hmem with hmem | hmem
    · obtain ⟨r, hr⟩ := h.got t g k hmem
      obtain ⟨-, hsame⟩ := hs.get?_takers hp (hp.named g _ hr).1 (by simp [Asks, hr])
      exact ⟨r, hsame.trans hr⟩
    · obtain ⟨e, he, heq⟩ := List.mem_map.1 hmem
      cases heq
      exact hs.got hp (Option.mem_toList.1 he)

/-! ## Runs -/

theorem Run.keeping (h : Run c (empty now name l w) ks τ p) : Keeping p := by
  induction h with
  | start => exact keeping_empty now name l w
  | next _ hs ih => exact hs.keeping ih

theorem Run.wakeful (h : Run c (empty now name l w) ks τ p) : p.queue.Wakeful := by
  induction h with
  | start => exact WorkQueue.wakeful_withLimiter name l
  | next hrun hs ih =>
    rcases hs.queue_step hrun.keeping with ⟨-, hq⟩ | ⟨e, -, hq⟩
    · exact hq ▸ ih
    · exact hq.wakeful ih

theorem Run.parted (h : Run c (empty now name l w) ks τ p) : Parted τ p := by
  induction h with
  | start => exact ⟨nofun, nofun⟩
  | next hrun hs ih => exact ih.step hrun.keeping hs

/-- The keys that came on the queue are those that were handed out and those that stand on it. -/
theorem Run.puts_eq (h : Run c (empty now name l w) ks τ p) :
    ks = WorkQueue.handed τ ++ p.queue.queue := by
  induction h with
  | start => rfl
  | @next ks τ p p' d hrun hs ih =>
    rcases hs.queue_step hrun.keeping with ⟨rfl, hq⟩ | ⟨e, rfl, hq⟩
    · show ks ++ [] = WorkQueue.handed (τ ++ []) ++ _
      rw [List.append_nil, List.append_nil, hq, ih]
    · show ks ++ (e.puts p'.now p.queue ++ []) = WorkQueue.handed (τ ++ [(p'.now, e)]) ++ _
      rw [WorkQueue.handed_concat, List.append_assoc, ← hq.queue_eq, ih, List.append_nil,
        List.append_assoc]

/-- The tasks that a pool runs by itself are steps of a run. -/
theorem Run.settle (h : Run c p₀ ks τ p) (n : Nat) : ∃ ks' τ', Run c p₀ ks' τ' (settle c n p) := by
  induction n generalizing p ks τ with
  | zero => exact ⟨ks, τ, h⟩
  | succ n ih =>
    unfold Pool.settle step?
    cases hline : p.line with
    | nil => exact ⟨ks, τ, h⟩
    | cons t ts => exact ih (h.next (.perform ⟨[], ts, hline, rfl⟩))

/-- **No key goes unheard**: whatever clients do with a queue, and whoever comes to wait for a key
or leaves, all that can run comes to an end, and once it has, one who waits finds the queue empty
and not shut. Keys are handed out in the order in which they came on the queue, and none is handed
to one who left. -/
theorem no_key_unheard (h : Run c (empty now name l w) ks τ p) :
    (∃ n, (Pool.settle c n p).line = []) ∧
    (p.line = [] → ∀ g, p.Asks g → p.queue.queue = [] ∧ p.queue.shuttingDown = false) ∧
    ks = WorkQueue.handed τ ++ p.queue.queue ∧
    ∀ t t' g k, (t, .leave g) ∈ τ → (t', .handOut g k) ∉ τ := by
  refine ⟨exists_settle h.keeping.ends, fun hline g hg => ?_, h.puts_eq,
    fun t t' g k hleft hgot => ?_⟩
  · have hp := h.keeping.attentive
    have hasleep : g ∈ p.queue.getters.asleep := (hp.ask_mem hg).resolve_left fun hmem => by
      rw [hline] at hmem
      cases hmem
    have hwoken : p.queue.getters.woken = [] := List.eq_nil_iff_forall_not_mem.2 fun e he => by
      have hmem := hp.called e.1 (List.mem_map_of_mem he)
      rw [hline] at hmem
      cases hmem
    obtain ⟨hopen, hle⟩ := h.wakeful.of_asleep hasleep
    rw [hwoken] at hle
    exact ⟨List.eq_nil_of_length_eq_zero (Nat.le_zero.1 hle), hopen⟩
  · obtain ⟨-, hnone⟩ := h.parted.left t g hleft
    obtain ⟨r, hr⟩ := h.parted.got t' g k hgot
    cases hnone.symm.trans hr

end

/-- Those who wait keep what they get, and it is noted who got what. -/
def noting : Craft (List (GetterId × Option Key)) Unit where
  start _ _ w := (.ended .success, w)
  resume _ _ _ w := (.success, w)
  kept _ g k w := w ++ [(g, k)]

/-- Three wait when a key comes. The one who is called leaves, and its call goes to the next. -/
theorem no_key_unheard_passed_on :
    let p₀ : Pool (List (GetterId × Option Key)) Unit := empty ⟨0⟩ "q" (.slowest []) []
    let p₁ := settle noting 3 (((p₀.join .keeper).2.join .keeper).2.join .keeper).2
    let p₂ := ({ p₁ with queue := p₁.queue.add "ns/a" } : Pool _ Unit).gather
    let p := settle noting 2 (p₂.dismiss 0)
    ∃ ks τ, Run noting p₀ ks τ p ∧ p₂.queue.getters.woken = [(0, .one)] ∧
      p.world = [(1, some "ns/a")] ∧ p.line = [] ∧ p.Asks 2 ∧
      p.queue.queue = [] ∧ p.queue.shuttingDown = false := by
  intro p₀ p₁ p₂ p
  have hcome : Run noting p₀ _ _ (((p₀.join .keeper).2.join .keeper).2.join .keeper).2 :=
    .next (.next (.next .start .come) .come) .come
  obtain ⟨ks₁, τ₁, h₁⟩ := hcome.settle 3
  have h₂ : Run noting p₀ _ _ p₂ := h₁.next (.act (.inl rfl) (.add "ns/a"))
  have hasks : p₂.Asks 0 := by decide +kernel
  obtain ⟨ks, τ, h⟩ : ∃ ks τ, Run noting p₀ ks τ p := (h₂.next (.leave hasks)).settle 2
  have hline : p.line = [] := List.eq_nil_of_length_eq_zero (by decide +kernel)
  have hasks' : p.Asks 2 := by decide +kernel
  exact ⟨ks, τ, h, by decide +kernel, by decide +kernel, hline, hasks',
    (no_key_unheard h).2.1 hline 2 hasks'⟩

end Getting

end Pool

end Prewarm
