import Prewarm.Proofs.WorkQueue.Run

/-!
# A key is with one worker at a time

Three collections of a queue overlap: the keys on the queue, the dirty ones and those that workers
have. `Exclusive` says how they lie to each other, and every deed of a run keeps it
(`Exclusive.step`). With it go the keys that are handed out by the history of the run: they are
those that workers have, each once (`Ledger`). So a key is not handed out again before it is done
(`run_exclusive`).
-/

namespace Prewarm.WorkQueue

section
variable {L : Type} {q q' : WorkQueue L} {k : Key}

/-- How the collections of keys of a queue lie to each other. -/
structure Exclusive (q : WorkQueue L) : Prop where
  /-- No key stands on the queue twice. -/
  nodup : q.queue.Nodup
  /-- No key on the queue is with a worker. -/
  idle : ∀ k ∈ q.queue, k ∉ q.processing
  /-- Every key on the queue is dirty. -/
  marked : ∀ k ∈ q.queue, k ∈ q.dirty
  /-- Every dirty key is on the queue or with a worker. -/
  placed : ∀ k ∈ q.dirty, k ∈ q.queue ∨ k ∈ q.processing

/-- A queue with the same keys in the same places. -/
theorem Exclusive.congr (h : Exclusive q) (hq : q'.queue = q.queue) (hd : q'.dirty = q.dirty)
    (hp : q'.processing = q.processing) : Exclusive q' where
  nodup := hq ▸ h.nodup
  idle k hk := by rw [hp]; exact h.idle k (hq ▸ hk)
  marked k hk := by rw [hd]; exact h.marked k (hq ▸ hk)
  placed k hk := by rw [hq, hp]; exact h.placed k (hd ▸ hk)

theorem exclusive_withLimiter (name : String) (l : L) : Exclusive (withLimiter name l) :=
  ⟨.nil, nofun, nofun, nofun⟩

/-- A key that is not on the queue goes to its end. -/
theorem nodup_concat {ks : List Key} (h : ks.Nodup) (hk : k ∉ ks) : (ks ++ [k]).Nodup :=
  List.nodup_append.2 ⟨h, by simp, fun a ha b hb e => hk (by simp_all)⟩

/-! ## Operations -/

/-- A key that is added was not dirty, so it was not on the queue. -/
theorem Exclusive.add (h : Exclusive q) (k : Key) : Exclusive (q.add k) := by
  rcases add_cases q k with ⟨-, he⟩ | ⟨-, -, hp, he⟩ | ⟨-, hd, hp, he⟩ <;> rw [he]
  · exact h
  · refine ⟨h.nodup, h.idle, fun x hx => mem_mark.2 (.inr (h.marked x hx)), fun x hx => ?_⟩
    rcases mem_mark.1 hx with rfl | hx
    · exact .inr hp
    · exact h.placed x hx
  · have hk : k ∉ q.queue := fun hk => hd (h.marked k hk)
    refine ⟨nodup_concat h.nodup hk, fun x hx => ?_, fun x hx => ?_, fun x hx => ?_⟩
    · rcases List.mem_append.1 hx with hx | hx
      · exact h.idle x hx
      · exact List.mem_singleton.1 hx ▸ hp
    · rcases List.mem_append.1 hx with hx | hx
      · exact mem_mark.2 (.inr (h.marked x hx))
      · exact mem_mark.2 (.inl (List.mem_singleton.1 hx))
    · rcases mem_mark.1 hx with rfl | hx
      · exact .inl (List.mem_append_right _ (.head _))
      · exact (h.placed x hx).imp_left (List.mem_append_left _)

theorem Exclusive.foldl_add (h : Exclusive q) (ks : List Key) :
    Exclusive (ks.foldl WorkQueue.add q) := by
  induction ks generalizing q with
  | nil => exact h
  | cons k ks ih => exact ih (h.add k)

theorem Exclusive.addAt (h : Exclusive q) (k : Key) (due : Instant) :
    Exclusive (q.addAt k due) := by
  rcases addAt_cases q k due with ⟨-, he⟩ | ⟨-, -, w, ts, b, -, he⟩ <;> rw [he]
  · exact h
  · exact h.congr rfl rfl rfl

theorem Exclusive.addAfter (h : Exclusive q) (k : Key) (now : Instant) (d : Duration) :
    Exclusive (q.addAfter k now d).2 := by
  rcases addAfter_cases q k now d with ⟨-, he⟩ | ⟨-, -, he⟩ | ⟨-, t, -, he⟩ <;> rw [he]
  · exact h.add k
  · exact h
  · exact h.addAt k t

theorem Exclusive.addRateLimited [Limiter L] (h : Exclusive q) (k : Key) (now : Instant) :
    Exclusive (q.addRateLimited k now).2 := by
  rcases addRateLimited_cases q k now with ⟨l, -, he⟩ | ⟨d, l, -, he⟩ <;> rw [he]
  · exact h.congr rfl rfl rfl
  · exact (h.congr rfl rfl rfl : Exclusive { q with limiter := l }).addAfter k now d

/-- The key that is handed out goes from the queue to a worker. It stood on the queue once, so it is
not on it any more. -/
theorem Exclusive.ask (h : Exclusive q) (g : GetterId) : Exclusive (q.ask g).2 := by
  rcases ask_cases q g with ⟨-, he⟩ | ⟨-, -, he⟩ | ⟨-, k, ks, hq, he⟩ <;> rw [he]
  · exact h.congr rfl rfl rfl
  · exact h.congr rfl rfl rfl
  · obtain ⟨hk, hks⟩ := List.nodup_cons.1 (hq ▸ h.nodup)
    have hne : ∀ x ∈ ks, x ≠ k := fun x hx e => hk (e ▸ hx)
    have hmem : ∀ x ∈ ks, x ∈ q.queue := fun x hx => hq ▸ List.mem_cons_of_mem k hx
    refine ⟨hks, fun x hx hp => ?_, fun x hx => ?_, fun x hx => ?_⟩
    · rcases mem_mark.1 hp with e | hp
      · exact hne x hx e
      · exact h.idle x (hmem x hx) hp
    · exact mem_unmark.2 ⟨h.marked x (hmem x hx), hne x hx⟩
    · obtain ⟨hd, hxk⟩ := mem_unmark.1 hx
      rcases h.placed x hd with hx | hx
      · rw [hq] at hx
        exact .inl ((List.mem_cons.1 hx).resolve_left hxk)
      · exact .inr (mem_mark.2 (.inr hx))

/-- A key that a worker has is not on the queue, so it can go there when it is done. -/
theorem Exclusive.done (h : Exclusive q) (hk : k ∈ q.processing) : Exclusive (q.done k) := by
  have hq : k ∉ q.queue := fun hq => h.idle k hq hk
  rcases done_cases q k with ⟨hd, he⟩ | ⟨hd, he⟩ <;> rw [he]
  · refine ⟨h.nodup, fun x hx hp => h.idle x hx (mem_unmark.1 hp).1, h.marked, fun x hx => ?_⟩
    exact (h.placed x hx).imp_right fun hp => mem_unmark.2 ⟨hp, fun e => hd (e ▸ hx)⟩
  · refine ⟨nodup_concat h.nodup hq, fun x hx hp => ?_, fun x hx => ?_, fun x hx => ?_⟩
    · obtain ⟨hp, hxk⟩ := mem_unmark.1 hp
      rcases List.mem_append.1 hx with hx | hx
      · exact h.idle x hx hp
      · exact hxk (List.mem_singleton.1 hx)
    · rcases List.mem_append.1 hx with hx | hx
      · exact h.marked x hx
      · exact List.mem_singleton.1 hx ▸ hd
    · by_cases hxk : x = k
      · exact .inl (List.mem_append_right _ (List.mem_singleton.2 hxk))
      · exact (h.placed x hx).imp (List.mem_append_left _) fun hp => mem_unmark.2 ⟨hp, hxk⟩

theorem Exclusive.shutDown (h : Exclusive q) : Exclusive q.shutDown :=
  h.congr (shutDown_queue q) (shutDown_dirty q) (shutDown_processing q)

theorem Exclusive.runTimer (h : Exclusive q) (now : Instant) : Exclusive (q.runTimer now) := by
  rcases runTimer_cases q now with he | ⟨-, ts, he⟩ | ⟨-, ts, r, b, he⟩ <;> rw [he]
  · exact h
  · exact h.congr rfl rfl rfl
  · have hw : Exclusive { q with waiting := q.waiting.filter (fun _ t => ¬ t.reached now) } :=
      h.congr rfl rfl rfl
    exact (hw.foldl_add (q.due now)).congr rfl rfl rfl

/-! ## Runs -/

section
variable [Limiter L] {now : Instant} {e : Deed} {τ : History} {q₀ : WorkQueue L}

/-- Every deed keeps the collections as they should lie, if only keys that workers have are done. -/
theorem Exclusive.step (h : Exclusive q) (hs : Step now q e q')
    (hdone : ∀ k, e = .done k → k ∈ q.processing) : Exclusive q' := by
  cases hs with
  | add k => exact h.add k
  | addAfter k d => exact h.addAfter k now d
  | addRateLimited k => exact h.addRateLimited k now
  | @handOut g k q' ha | @turnAway g a q' ha _ =>
    have := h.ask g
    rwa [ha] at this
  | done k => exact h.done (hdone k rfl)
  | shutDown => exact h.shutDown
  | fire => exact h.runTimer now
  | leave | forget | tick => exact h.congr rfl rfl rfl

/-- The keys that are handed out by the history of a queue are those that workers have, each of them
once. -/
structure Ledger (τ : History) (q : WorkQueue L) : Prop where
  nodup : (held τ).Nodup
  mem : ∀ k, k ∈ held τ ↔ k ∈ q.processing

/-- The key of a hand-out stood on the queue, so no worker had it. -/
theorem Step.not_processing {g : GetterId} (hx : Exclusive q) (hs : Step now q (.handOut g k) q') :
    k ∉ q.processing := by
  cases hs with
  | handOut h =>
    rcases ask_cases q g with ⟨-, h'⟩ | ⟨-, -, h'⟩ | ⟨-, x, ks, hq, h'⟩ <;>
      rw [h'] at h <;> cases h
    exact hx.idle _ (hq ▸ .head _)

theorem Ledger.step (h : Ledger τ q) (hx : Exclusive q) (hs : Step now q e q') :
    Ledger (τ ++ [(now, e)]) q' := by
  have hmem := fun k => hs.mem_processing (k := k)
  cases e with
  | handOut g k =>
    have hk : k ∉ held τ := fun hk => hs.not_processing hx ((h.mem k).1 hk)
    refine ⟨?_, fun x => ?_⟩ <;> rw [held_concat]
    · exact List.nodup_cons.2 ⟨hk, h.nodup⟩
    · rw [hmem, Deed.hold, List.mem_cons, h.mem]
      simp [eq_comm]
  | done k =>
    refine ⟨?_, fun x => ?_⟩ <;> rw [held_concat]
    · exact h.nodup.erase k
    · rw [hmem, Deed.hold, h.nodup.mem_erase_iff, h.mem]
      simp [and_comm, eq_comm]
  | add | addAfter | addRateLimited | turnAway | leave | forget | shutDown | tick | fire =>
    refine ⟨?_, fun x => ?_⟩ <;> rw [held_concat]
    · exact h.nodup
    · simpa [Deed.hold, h.mem] using (hmem x).symm

/-- In every run from an empty queue the collections lie as they should, and the keys that are
handed out are those that workers have. -/
theorem Run.invariant (hx : Exclusive q₀) (hl : Ledger [] q₀) (h : Run q₀ τ q) :
    Exclusive q ∧ Ledger τ q := by
  induction h with
  | start => exact ⟨hx, hl⟩
  | next _ hdone hs ih =>
    exact ⟨ih.1.step hs fun k e => (ih.2.mem k).1 (hdone k e), ih.2.step ih.1 hs⟩

/-- A key that is handed out stays so until it is done. -/
theorem mem_held_append (τ' : History) (hk : k ∈ held τ) (h : ∀ now, (now, Deed.done k) ∉ τ') :
    k ∈ held (τ ++ τ') := by
  induction τ' generalizing τ with
  | nil => rwa [List.append_nil]
  | cons e τ' ih =>
    obtain ⟨now, e⟩ := e
    rw [List.append_cons]
    refine ih ?_ fun now hn => h now (List.mem_cons_of_mem _ hn)
    rw [held_concat]
    cases e with
    | handOut g x => exact List.mem_cons_of_mem x hk
    | done x =>
      have hne : k ≠ x := fun e => h now (e ▸ .head _)
      exact (List.mem_erase_of_ne hne).2 hk
    | add | addAfter | addRateLimited | turnAway | leave | forget | shutDown | tick | fire =>
      exact hk

/-- Between two hand-outs of a key it is done, since until then a worker has it. -/
theorem Run.done_between (hx : Exclusive q₀) (hl : Ledger [] q₀) (h : Run q₀ τ q)
    {g g' : GetterId} {t t' : Instant} {τ₁ τ₂ τ₃ : History}
    (hτ : τ = τ₁ ++ (t, .handOut g k) :: τ₂ ++ (t', .handOut g' k) :: τ₃) :
    ∃ t'', (t'', Deed.done k) ∈ τ₂ := by
  induction h generalizing τ₃ with
  | start => simp at hτ
  | @next τ q q' now e hrun _ hs ih =>
    rcases List.eq_nil_or_concat τ₃ with rfl | ⟨τ₃, e', rfl⟩
    · -- the second hand-out comes last, so the key was not handed out just before it
      obtain ⟨rfl, he⟩ := List.append_inj' hτ rfl
      cases he
      refine Classical.byContradiction fun hno => ?_
      have hk : k ∈ held (τ₁ ++ [(t, Deed.handOut g k)]) := by
        rw [held_concat]
        exact .head _
      have hk := mem_held_append τ₂ hk fun n hn => hno ⟨n, hn⟩
      rw [← List.append_cons] at hk
      obtain ⟨hx, hl⟩ := hrun.invariant hx hl
      exact hs.not_processing hx ((hl.mem k).1 hk)
    · rw [List.concat_eq_append, ← List.cons_append, ← List.append_assoc] at hτ
      exact ih (List.append_inj' hτ rfl).1

/-- Whatever is done with a queue, in any order and by any number of clients that call a key done
once for each time they got it: no key is on the queue twice, none on the queue is with a worker,
each on the queue is dirty and each dirty one is on the queue or with a worker; and between two
hand-outs of a key it is done. -/
theorem run_exclusive {name : String} {l : L} (h : Run (withLimiter name l) τ q) :
    q.queue.Nodup ∧
    (∀ k ∈ q.queue, k ∉ q.processing) ∧
    (∀ k ∈ q.queue, k ∈ q.dirty) ∧
    (∀ k ∈ q.dirty, k ∈ q.queue ∨ k ∈ q.processing) ∧
    ∀ (k : Key) (g g' : GetterId) (t t' : Instant) (τ₁ τ₂ τ₃ : History),
      τ = τ₁ ++ (t, .handOut g k) :: τ₂ ++ (t', .handOut g' k) :: τ₃ →
      ∃ t'', (t'', Deed.done k) ∈ τ₂ := by
  have hx := exclusive_withLimiter name l
  have hl : Ledger [] (withLimiter name l) := ⟨.nil, fun k => .rfl⟩
  obtain ⟨hq, -⟩ := h.invariant hx hl
  exact ⟨hq.nodup, hq.idle, hq.marked, hq.placed,
    fun k g g' t t' τ₁ τ₂ τ₃ hτ => h.done_between hx hl hτ⟩

/-- A key that is added again while a worker has it, and is handed out again once it is done. -/
theorem run_exclusive_readded :
    let q₀ : WorkQueue := withLimiter "q" (.slowest [])
    let q₁ := ((q₀.add "ns/a").ask 1).2
    let q₂ := ((q₁.add "ns/a").done "ns/a").ask 2 |>.2
    Run q₀ [(⟨0⟩, .add "ns/a"), (⟨0⟩, .handOut 1 "ns/a"), (⟨1⟩, .add "ns/a"), (⟨2⟩, .done "ns/a"),
      (⟨2⟩, .handOut 2 "ns/a")] q₂ ∧
    q₂.queue.Nodup ∧ (∀ k ∈ q₂.dirty, k ∈ q₂.queue ∨ k ∈ q₂.processing) ∧
    ∃ t : Instant, (t, Deed.done "ns/a") ∈ [(⟨1⟩, .add "ns/a"), (⟨2⟩, .done "ns/a")] := by
  intro q₀ q₁ q₂
  have h₁ : Run q₀ [(⟨0⟩, .add "ns/a"), (⟨0⟩, .handOut 1 "ns/a")] q₁ :=
    .next (.next .start (by simp) (.add _)) (by simp) (.handOut rfl)
  have h₂ : Run q₀ [(⟨0⟩, .add "ns/a"), (⟨0⟩, .handOut 1 "ns/a"), (⟨1⟩, .add "ns/a"),
      (⟨2⟩, .done "ns/a"), (⟨2⟩, .handOut 2 "ns/a")] q₂ :=
    .next (.next (.next h₁ (by simp) (.add _)) (fun k e => by cases e; decide) (.done _)) (by simp)
      (.handOut rfl)
  obtain ⟨hnodup, -, -, hplaced, hdone⟩ := run_exclusive h₂
  exact ⟨h₂, hnodup, hplaced, hdone "ns/a" 1 2 ⟨0⟩ ⟨2⟩ [_] [_, _] [] rfl⟩

end

end

end Prewarm.WorkQueue
