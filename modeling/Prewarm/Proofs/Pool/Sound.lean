import Prewarm.Proofs.Pool.Tasks
import Prewarm.Proofs.WorkQueue.Pending

/-!
# What every task keeps of a pool

As long as its queue does not shut down and delays do not fail, a pool stays `Sound`: its queue
takes keys, and whoever takes a key is known by a name of its own and works on the key.
-/

namespace Prewarm.Pool

section
variable {ω ρ L : Type} [Limiter L] {c : Craft ω ρ} {l : L} {p : Pool ω ρ L} {g : GetterId}
  {r : Role} {now : Instant}

/-- A pool whose queue takes keys, where each of those who take keys has been given a name and works
on the keys that it takes. -/
structure Sound (l : L) (p : Pool ω ρ L) : Prop where
  takes : p.queue.Takes l
  named : ∀ g t, p.takers.get? g = some t → g < p.nextId ∧ t.role ≠ .keeper

/-- Someone has gone on to another stand. -/
theorem Sound.place {p' : Pool ω ρ L} {t : Taker} (h : Sound l p) (hq : p'.queue.Takes l)
    (hid : p'.nextId = p.nextId) (hg : g < p.nextId) (ht : t.role ≠ .keeper)
    (htakers : p'.takers = p.takers.insert g t) : Sound l p' := by
  refine ⟨hq, fun x t' hx => ?_⟩
  rw [htakers, Table.get?_insert] at hx
  rw [hid]
  split at hx
  · next hxg =>
    cases hx
    exact ⟨hxg ▸ hg, ht⟩
  · exact h.named x t' hx

/-- A pool stays sound when one of those who take keys asks for one. -/
theorem Sound.askFor (h : Sound l p) (hg : g < p.nextId) (hr : r ≠ .keeper) :
    Sound l (askFor c p g r) := by
  obtain ⟨hid, hq, htakers⟩ := askFor_cases c p g hr
  have htakes : (Pool.askFor c p g r).queue.Takes l := hq ▸ h.takes.ask g
  rcases htakers with ⟨k, -, ht⟩ | ⟨-, ht | ⟨-, ht⟩⟩
  · exact h.place htakes hid hg hr ht
  · refine ⟨htakes, fun x t hx => ?_⟩
    rw [ht] at hx
    exact hid ▸ h.named x t hx
  · exact h.place htakes hid hg hr ht

variable (hl : Limiter.NeverFails l)
include hl

/-- A pool stays sound when work has ended, with whatever outcome. -/
theorem Sound.finish (h : Sound l p) (ht : Limiter.ShownUntil p.now l) (o : Outcome) :
    Sound l (finish c p g o) := by
  cases hk : p.worksOn? g with
  | none =>
    rw [finish_eq_self c o hk]
    exact h
  | some k =>
    obtain ⟨r, hg⟩ := exists_taker hk
    obtain ⟨hid, hr⟩ := h.named g _ hg
    rcases finish_cases c o hg with ⟨e, he⟩ | ⟨-, p', hid', hq, hp'⟩
    · rw [WorkQueue.handBack_ok hl ht h.takes.becomes k o] at he
      cases he
    · have htakes : p'.queue.Takes l := hq ▸ h.takes.handBack k o p.now
      rcases hp' with ⟨-, htakers, hf⟩ | ⟨-, htakers, hf⟩ <;> rw [hf]
      · have hp' : Sound l p' := h.place (t := ⟨r, .asking⟩) htakes hid' hid hr htakers
        exact hp'.askFor (hid' ▸ hid) hr
      · exact h.place (t := ⟨r, .ended true⟩) htakes hid' hid hr htakers

/-- Every task keeps a pool sound, if delays do not fail. -/
theorem Sound.perform (h : Sound l p) (ht : Limiter.ShownUntil p.now l) (t : Task ρ) :
    Sound l (perform c p t) := by
  cases t with
  | ask g =>
    unfold Pool.perform
    dsimp only
    split
    · next r hg => exact h.askFor (h.named g _ hg).1 (h.named g _ hg).2
    · exact h
  | start g k =>
    unfold Pool.perform
    dsimp only
    split
    · exact ⟨h.takes, h.named⟩
    · exact ⟨h.takes, h.named⟩
  | resume g k rest => exact ⟨h.takes, h.named⟩
  | finish g o => exact h.finish hl ht o
  | timer => exact ⟨h.takes.runTimer p.now, h.named⟩

omit hl

/-- A pool stays sound when changes put keys on its queue. -/
theorem Sound.tryQueue (h : Sound l p) (ks : List Key) :
    Sound l (p.tryQueue (·.addAllRateLimited now ks)).2 :=
  ⟨h.takes.addAllRateLimited now, h.named⟩

/-- A pool stays sound when someone joins who takes keys. -/
theorem Sound.join (h : Sound l p) (hr : r ≠ .keeper) : Sound l (p.join r).2 := by
  refine ⟨h.takes, fun x t hx => ?_⟩
  have hx : (p.takers.insert p.nextId { role := r }).get? x = some t := hx
  rw [Table.get?_insert] at hx
  split at hx
  · next hxg =>
    cases hx
    exact ⟨hxg ▸ Nat.lt_succ_self _, hr⟩
  · exact ⟨Nat.lt_succ_of_lt (h.named x t hx).1, (h.named x t hx).2⟩

/-- A pool stays sound as time passes. -/
theorem Sound.moveTo (h : Sound l p) : Sound l (p.moveTo now) :=
  ⟨h.takes.congr rfl rfl, h.named⟩

end

end Prewarm.Pool
