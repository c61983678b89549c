import Mathlib.Data.List.Perm.Subperm
import Prewarm.Proofs.Pool.Run

/-!
# Who has which key

The keys that a queue takes to be with workers, the keys that workers have and the jobs there are
belong together: each key is with one worker, who has one job because of it (`Assigned`). One takes
a key that is with no one (`Assigned.take`), works on it until the work has ended
(`Assigned.ended`) and gives it back (`Assigned.release`). So no two jobs are about one key
(`Assigned.nodup_keys`), and there are no more jobs than workers (`Assigned.length_le`).
-/

namespace Prewarm.Pool

section
variable {ks ks' : List Key} {has has' : GetterId → Option Key} {js js' : List Job} {g : GetterId}
  {k : Key} {key : Option Key}

/-- Each of some keys is with one taker, and the takers with keys have one job each, which is about
the key as long as it goes on. -/
structure Assigned (ks : List Key) (has : GetterId → Option Key) (js : List Job) : Prop where
  owned : ∀ k, k ∈ ks ↔ ∃ g, has g = some k
  alone : ∀ g g' k, has g = some k → has g' = some k → g = g'
  nodup : (js.map Job.taker).Nodup
  fits : ∀ j ∈ js, ∃ k, has j.taker = some k ∧ ∀ x, j.key = some x → x = k
  covers : ∀ g k, has g = some k → ∃ j ∈ js, j.taker = g

theorem assigned_nil : Assigned [] (fun _ => none) [] where
  owned _ := ⟨nofun, fun ⟨_, hg⟩ => nomatch hg⟩
  alone := nofun
  nodup := .nil
  fits := nofun
  covers := nofun

theorem Assigned.perm (h : Assigned ks has js) (hjs : js'.Perm js) : Assigned ks has js' where
  owned := h.owned
  alone := h.alone
  nodup := (hjs.map _).nodup_iff.2 h.nodup
  fits j hj := h.fits j (hjs.mem_iff.1 hj)
  covers g k hg := by
    obtain ⟨j, hj, hjg⟩ := h.covers g k hg
    exact ⟨j, hjs.mem_iff.2 hj, hjg⟩

theorem Assigned.congr (h : Assigned ks has js) (hks : ∀ x, x ∈ ks' ↔ x ∈ ks)
    (hhas : ∀ x, has' x = has x) : Assigned ks' has' js := by
  obtain rfl : has' = has := funext hhas
  exact ⟨fun x => (hks x).trans (h.owned x), h.alone, h.nodup, h.fits, h.covers⟩

/-- Work that ends is still the job of the one who took the key. -/
theorem Assigned.ended (h : Assigned ks has (⟨g, key⟩ :: js)) :
    Assigned ks has (⟨g, none⟩ :: js) where
  owned := h.owned
  alone := h.alone
  nodup := h.nodup
  fits := by
    obtain ⟨⟨k, hk, -⟩, hjs⟩ := List.forall_mem_cons.1 h.fits
    exact List.forall_mem_cons.2 ⟨⟨k, hk, nofun⟩, hjs⟩
  covers := by simpa using h.covers

/-- One without a key gets one that is with no one. -/
theorem Assigned.take (h : Assigned ks has js) (hg : has g = none) (hk : k ∉ ks)
    (hks : ∀ x, x ∈ ks' ↔ x = k ∨ x ∈ ks) (hhas : ∀ x, has' x = if x = g then some k else has x) :
    Assigned ks' has' (⟨g, some k⟩ :: js) := by
  have hnew : has' g = some k := (hhas g).trans (if_pos rfl)
  have hold : ∀ x, x ≠ g → has' x = has x := fun x hx => (hhas x).trans (if_neg hx)
  have hne : ∀ x y, has x = some y → x ≠ g := fun x y hx e => by
    rw [e, hg] at hx
    cases hx
  -- no one had the key before, so it has one owner now
  have hfree : ∀ x, has x ≠ some k := fun x hx => hk ((h.owned k).2 ⟨x, hx⟩)
  refine ⟨fun x => ?_, fun x y z hx hy => ?_, ?_, ?_, fun x y hx => ?_⟩
  · rw [hks]
    constructor
    · rintro (rfl | hx)
      · exact ⟨g, hnew⟩
      · obtain ⟨y, hy⟩ := (h.owned x).1 hx
        exact ⟨y, (hold y (hne y x hy)).trans hy⟩
    · rintro ⟨y, hy⟩
      rw [hhas] at hy
      split at hy
      · exact .inl (Option.some.inj hy).symm
      · exact .inr ((h.owned x).2 ⟨y, hy⟩)
  · rw [hhas] at hx hy
    split at hx <;> split at hy
    · next hxg hyg => rw [hxg, hyg]
    · cases hx
      exact absurd hy (hfree y)
    · cases hy
      exact absurd hx (hfree x)
    · exact h.alone x y z hx hy
  · refine List.nodup_cons.2 ⟨fun hmem => ?_, h.nodup⟩
    obtain ⟨j, hj, hjg⟩ := List.mem_map.1 hmem
    obtain ⟨x, hx, -⟩ := h.fits j hj
    exact hne _ x hx hjg
  · refine List.forall_mem_cons.2 ⟨⟨k, hnew, fun x hx => (Option.some.inj hx).symm⟩, ?_⟩
    intro j hj
    obtain ⟨x, hx, hjx⟩ := h.fits j hj
    exact ⟨x, (hold _ (hne _ x hx)).trans hx, hjx⟩
  · by_cases hxg : x = g
    · exact ⟨_, .head _, hxg.symm⟩
    · rw [hold x hxg] at hx
      obtain ⟨j, hj, hjx⟩ := h.covers x y hx
      exact ⟨j, .tail _ hj, hjx⟩

/-- One with a key gives it back. -/
theorem Assigned.release (h : Assigned ks has (⟨g, key⟩ :: js)) (hg : has g = some k)
    (hks : ∀ x, x ∈ ks' ↔ x ∈ ks ∧ x ≠ k)
    (hhas : ∀ x, has' x = if x = g then none else has x) : Assigned ks' has' js := by
  have hold : ∀ x, x ≠ g → has' x = has x := fun x hx => (hhas x).trans (if_neg hx)
  have hkept : ∀ x y, has' x = some y → x ≠ g ∧ has x = some y := fun x y hx => by
    rw [hhas] at hx
    split at hx
    · cases hx
    · next hxg => exact ⟨hxg, hx⟩
  obtain ⟨hnot, hnodup⟩ := List.nodup_cons.1 h.nodup
  refine ⟨fun x => ?_, fun x y z hx hy => ?_, hnodup, fun j hj => ?_, fun x y hx => ?_⟩
  · rw [hks, h.owned]
    constructor
    · rintro ⟨⟨y, hy⟩, hx⟩
      have hyg : y ≠ g := fun e => hx (by
        rw [e, hg] at hy
        exact (Option.some.inj hy).symm)
      exact ⟨y, (hold y hyg).trans hy⟩
    · rintro ⟨y, hy⟩
      obtain ⟨hyg, hy⟩ := hkept y x hy
      exact ⟨⟨y, hy⟩, fun e => hyg (h.alone y g k (e ▸ hy) hg)⟩
  · exact h.alone x y z (hkept x z hx).2 (hkept y z hy).2
  · have hjg : j.taker ≠ g := fun e => hnot (List.mem_map.2 ⟨j, hj, e⟩)
    obtain ⟨x, hx, hjx⟩ := h.fits j (.tail _ hj)
    exact ⟨x, (hold _ hjg).trans hx, hjx⟩
  · obtain ⟨hxg, hx⟩ := hkept x y hx
    obtain ⟨j, hj, hjx⟩ := h.covers x y hx
    rcases List.mem_cons.1 hj with rfl | hj
    · exact absurd hjx.symm hxg
    · exact ⟨j, hj, hjx⟩

/-- There are no more jobs than those who may have keys. -/
theorem Assigned.length_le {n : Nat} (h : Assigned ks has js)
    (hlt : ∀ g k, has g = some k → g < n) : js.length ≤ n := by
  have hsub : js.map Job.taker ⊆ List.range n := by
    intro g hg
    obtain ⟨j, hj, rfl⟩ := List.mem_map.1 hg
    obtain ⟨k, hk, -⟩ := h.fits j hj
    exact List.mem_range.2 (hlt _ k hk)
  have hle := (h.nodup.subperm hsub).length_le
  rwa [List.length_map, List.length_range] at hle

/-- No two jobs that go on are about one key. -/
theorem Assigned.nodup_keys (h : Assigned ks has js) : (js.filterMap Job.key).Nodup := by
  have hne : js.Pairwise fun j j' => j.taker ≠ j'.taker := List.pairwise_map.1 h.nodup
  refine List.pairwise_filterMap.2 (hne.imp_of_mem ?_)
  rintro j j' hj hj' hne k hk k' hk' rfl
  obtain ⟨x, hx, hjx⟩ := h.fits j hj
  obtain ⟨x', hx', hjx'⟩ := h.fits j' hj'
  cases hjx k hk
  cases hjx' k hk'
  exact hne (h.alone _ _ k hx hx')

end

end Prewarm.Pool
