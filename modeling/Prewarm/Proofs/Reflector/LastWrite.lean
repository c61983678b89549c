import Mathlib.Data.List.MinMax
import Mathlib.Data.List.Nodup
import Prewarm.Proofs.Store.Writes
import Prewarm.Reflector
import Prewarm.WarmImage

/-!
# The last write wins

Changes of one object can be told of in any order. A store compares the version of an object with
that of the copy it has, and a deletion leaves no copy behind. So what is kept of changes is that of
the greatest version as long as they come `InStep`: no deletion is older than the copy there is, and
where there is no copy nothing is filed that is older than a deletion told of before
(`last_write_wins`). An object that is told of after its deletion comes back, since there is nothing
left to compare it with (`older_object_returns`).
-/

namespace Prewarm

/-! ## Changes of an object -/

namespace Change

section
variable {α : Type}

/-- The object that a change is about. -/
def object? : Change α → Option α
  | added a | modified a | deleted a => some a
  | bookmark _ => none

/-- What a change leaves of its object. -/
def result? : Change α → Option α
  | added a | modified a => some a
  | deleted _ | bookmark _ => none

variable {c c' : Change α} {a b : α}

/-- What a change leaves is the object that it is about. -/
theorem object?_of_result? (h : c.result? = some a) : c.object? = some a := by
  cases c with
  | added b | modified b => exact h
  | deleted b | bookmark v => cases h

variable [Resource α] {k : Key}

/-- The version of the object that a change is about, if it is a number. -/
def number (c : Change α) : Nat := (c.object?.bind fun a => (metadata a).versionNumber?).getD 0

/-- A change of the object with a key, at a version that is a number. -/
def IsOf (k : Key) (c : Change α) : Prop :=
  ∃ a, c.object? = some a ∧ keyOf a = k ∧ (metadata a).versionNumber? = some c.number

/-- A change of the object with a key is about an object with that key. -/
theorem IsOf.key (hc : c.IsOf k) (h : c.object? = some a) : keyOf a = k := by
  obtain ⟨b, hb, hk, -⟩ := hc
  cases h.symm.trans hb
  exact hk

/-- A change of an object writes or deletes it. -/
theorem IsOf.cases (hc : c.IsOf k) :
    (∃ a, c.result? = some a ∧ c.object? = some a) ∨ ∃ d, c = .deleted d := by
  cases c with
  | added a | modified a => exact .inl ⟨a, rfl, rfl⟩
  | deleted d => exact .inr ⟨d, rfl⟩
  | bookmark v =>
    obtain ⟨_, h, -⟩ := hc
    cases h

/-- The objects of changes are compared by the versions of the changes. -/
theorem isOlder_eq (hc : c.IsOf k) (hc' : c'.IsOf k) (ha : c.object? = some a)
    (hb : c'.object? = some b) : Store.isOlder a b = decide (c.number < c'.number) := by
  obtain ⟨a', ha', -, hn⟩ := hc
  obtain ⟨b', hb', -, hn'⟩ := hc'
  cases ha.symm.trans ha'
  cases hb.symm.trans hb'
  unfold Store.isOlder
  rw [hn, hn']

end

end Change

namespace Reflector

section
variable {α : Type} [Resource α] {r : Reflector α} {k : Key} {c : Change α}
  {cs cs' : List (Change α)} {a old : α}

/-- The copy that a reflector has under a key after changes one after the other. -/
def copyAfter (r : Reflector α) (k : Key) (cs : List (Change α)) : Option α :=
  (cs.foldl (fun r c => (r.takeChange c).1) r).store.getByKey? k

/-- Whether a change does not come too late after others: a deletion is not older than the copy
there is, and an object is not older than a deletion told of before if there is no copy. -/
def Timely (r : Reflector α) (k : Key) (cs : List (Change α)) : Change α → Prop
  | .deleted d => ∀ a, r.copyAfter k cs = some a → Store.isOlder d a = false
  | .added a | .modified a =>
    r.copyAfter k cs = none → ∀ d, .deleted d ∈ cs → Store.isOlder a d = false
  | .bookmark _ => True

/-- When a change that writes an object comes in time: no newer deletion was told of before, or
there is a copy. -/
theorem timely_of_result? (hc : c.result? = some a) : r.Timely k cs c ↔
    (r.copyAfter k cs = none → ∀ d, .deleted d ∈ cs → Store.isOlder a d = false) := by
  cases c with
  | added b | modified b =>
    cases hc
    rfl
  | deleted b | bookmark v => cases hc

/-- Changes none of which comes too late. -/
inductive InStep (r : Reflector α) (k : Key) : List (Change α) → Prop
  | nil : InStep r k []
  | concat {cs : List (Change α)} {c : Change α} :
      InStep r k cs → r.Timely k cs c → InStep r k (cs ++ [c])

/-- The change of the greatest version. -/
structure Newest (cs : List (Change α)) (c : Change α) : Prop where
  mem : c ∈ cs
  le : ∀ c' ∈ cs, c'.number ≤ c.number

/-! ## One more change -/

/-- The copy after one more change is what that change makes of the copy before. -/
theorem copyAfter_concat (r : Reflector α) (k : Key) (cs : List (Change α)) (c : Change α) :
    ∃ r' : Reflector α, r'.store.getByKey? k = r.copyAfter k cs ∧
      r.copyAfter k (cs ++ [c]) = (r'.takeChange c).1.store.getByKey? k := by
  refine ⟨_, rfl, ?_⟩
  unfold copyAfter
  rw [List.foldl_append]
  rfl

/-- A deletion leaves no copy, whatever its version. -/
theorem copyAfter_concat_deleted (hk : keyOf a = k) :
    r.copyAfter k (cs ++ [.deleted a]) = none := by
  obtain ⟨r', -, hafter⟩ := copyAfter_concat r k cs (.deleted a)
  rw [hafter]
  exact (Store.getByKey?_remove r'.store a k).trans (if_pos hk.symm)

/-- An object is filed, unless it is older than the copy there is. -/
theorem copyAfter_concat_written (hc : c.result? = some a) (hk : keyOf a = k) :
    (r.copyAfter k cs = none ∧ r.copyAfter k (cs ++ [c]) = some a) ∨
    ∃ old, r.copyAfter k cs = some old ∧
      r.copyAfter k (cs ++ [c]) = if Store.isOlder a old = true then some old else some a := by
  subst hk
  obtain ⟨r', hbefore, hafter⟩ := copyAfter_concat r (keyOf a) cs c
  have hstore : (r'.takeChange c).1.store = (r'.store.upsert a).1 := by
    cases c with
    | added b | modified b =>
      cases hc
      rfl
    | deleted b | bookmark n => cases hc
  rw [hafter, hstore, ← hbefore]
  cases hcopy : r'.store.getByKey? (keyOf a) with
  | none =>
    refine .inl ⟨rfl, (Store.getByKey?_upsert (fun old hold => ?_) (keyOf a)).trans (if_pos rfl)⟩
    rw [hcopy] at hold
    cases hold
  | some old =>
    refine .inr ⟨old, rfl, ?_⟩
    split
    · next holder =>
      unfold Store.getByKey? at hcopy
      unfold Store.upsert
      rw [hcopy]
      dsimp only
      rw [if_pos holder]
      exact hcopy
    · next holder =>
      refine (Store.getByKey?_upsert (fun b hb => ?_) (keyOf a)).trans (if_pos rfl)
      cases hcopy.symm.trans hb
      exact Bool.eq_false_iff.2 holder

/-! ## The newest change -/

/-- A change that is not older than the others is the newest when it comes last. -/
theorem newest_concat (h : ∀ c' ∈ cs, c'.number ≤ c.number) : Newest (cs ++ [c]) c :=
  ⟨List.mem_append_right _ (.head _), fun c' hc' => (List.mem_append.1 hc').elim (h c') fun h =>
    Nat.le_of_eq (List.mem_singleton.1 h ▸ rfl)⟩

/-- One change alone is the newest. -/
theorem newest_singleton (c : Change α) : Newest [c] c :=
  ⟨.head _, fun _ h => Nat.le_of_eq (List.mem_singleton.1 h ▸ rfl)⟩

/-- The newest change stays so if one comes that is not newer. -/
theorem Newest.concat_of_le {c' : Change α} (h : Newest cs c) (hle : c'.number ≤ c.number) :
    Newest (cs ++ [c']) c :=
  ⟨List.mem_append_left _ h.mem, fun x hx => (List.mem_append.1 hx).elim (h.le x) fun h =>
    List.mem_singleton.1 h ▸ hle⟩

/-- A change that is not older than the newest becomes the newest. -/
theorem Newest.concat_of_ge {c' : Change α} (h : Newest cs c) (hle : c.number ≤ c'.number) :
    Newest (cs ++ [c']) c' :=
  newest_concat fun x hx => Nat.le_trans (h.le x hx) hle

/-- Among changes there is a newest one. -/
theorem Newest.exists (h : cs ≠ []) : ∃ c, Newest cs c := by
  cases hmax : cs.argmax Change.number with
  | none => exact absurd (List.argmax_eq_none.1 hmax) h
  | some c => exact ⟨c, List.argmax_mem hmax, fun c' hc' => List.le_of_mem_argmax hc' hmax⟩

/-- Among changes at distinct versions there is one newest, in whatever order they come. -/
theorem Newest.eq_of_perm {c' : Change α} (h : Newest cs c) (h' : Newest cs' c')
    (hperm : cs'.Perm cs) (hdistinct : (cs.map Change.number).Nodup) : c' = c := by
  have hmem := hperm.mem_iff.1 h'.mem
  exact List.inj_on_of_nodup_map hdistinct hmem h.mem
    (Nat.le_antisymm (h.le c' hmem) (h'.le c (hperm.mem_iff.2 h.mem)))

/-! ## A run of changes -/

/-- The copy that there is is what the newest change has left. -/
def Newest.IsKept (r : Reflector α) (k : Key) (cs : List (Change α)) : Prop :=
  ∃ c, Newest cs c ∧ r.copyAfter k cs = c.result?

/-- After a deletion that comes in time, what there is is what the newest change has left. -/
theorem isKept_deleted {d : α} (hof : ∀ c ∈ cs ++ [.deleted d], c.IsOf k)
    (htimely : r.Timely k cs (.deleted d)) (h : cs = [] ∨ Newest.IsKept r k cs) :
    Newest.IsKept r k (cs ++ [.deleted d]) := by
  have hofd := hof (.deleted d) (List.mem_append_right _ (.head _))
  have hafter : r.copyAfter k (cs ++ [.deleted d]) = none := copyAfter_concat_deleted (hofd.key rfl)
  obtain rfl | ⟨c, hc, hcopy⟩ := h
  · exact ⟨_, newest_singleton _, hafter⟩
  have hofc := hof c (List.mem_append_left _ hc.mem)
  obtain ⟨a, hres, hobj⟩ | ⟨d', rfl⟩ := hofc.cases
  · have hle := htimely a (hcopy.trans hres)
    rw [Change.isOlder_eq hofd hofc rfl hobj] at hle
    exact ⟨_, hc.concat_of_ge (Nat.not_lt.1 (of_decide_eq_false hle)), hafter⟩
  · -- What was removed before is still not there, whichever of the two deletions is newer.
    obtain hle | hle := Nat.le_total (Change.deleted d).number (Change.deleted d').number
    · exact ⟨_, hc.concat_of_le hle, hafter⟩
    · exact ⟨_, hc.concat_of_ge hle, hafter⟩

/-- After a write that comes in time, what there is is what the newest change has left. -/
theorem isKept_written (hres : c.result? = some a) (hof : ∀ c' ∈ cs ++ [c], c'.IsOf k)
    (htimely : r.Timely k cs c)
    (hnew : ∀ old, r.store.getByKey? k = some old → Store.isOlder a old = false)
    (h : cs = [] ∨ Newest.IsKept r k cs) : Newest.IsKept r k (cs ++ [c]) := by
  have hofa := hof c (List.mem_append_right _ (.head _))
  have hobj := Change.object?_of_result? hres
  obtain ⟨hnone, hafter⟩ | ⟨old, hold, hafter⟩ := copyAfter_concat_written hres (hofa.key hobj)
  · refine ⟨c, newest_concat fun c' hc' => ?_, hafter.trans hres.symm⟩
    obtain rfl | ⟨c₀, hc₀, hcopy⟩ := h
    · cases hc'
    -- The newest change is the deletion that has left no copy.
    have hof₀ := hof c₀ (List.mem_append_left _ hc₀.mem)
    obtain ⟨b, hb, -⟩ | ⟨d, rfl⟩ := hof₀.cases
    · cases (hnone.symm.trans hcopy).trans hb
    have hle := (timely_of_result? hres).1 htimely hnone d hc₀.mem
    rw [Change.isOlder_eq hofa hof₀ hobj rfl] at hle
    exact Nat.le_trans (hc₀.le c' hc') (Nat.not_lt.1 (of_decide_eq_false hle))
  · obtain rfl | ⟨c₀, hc₀, hcopy⟩ := h
    · rw [hnew old hold, if_neg Bool.false_ne_true] at hafter
      exact ⟨c, newest_singleton c, hafter.trans hres.symm⟩
    have hres₀ := hcopy.symm.trans hold
    rw [Change.isOlder_eq hofa (hof c₀ (List.mem_append_left _ hc₀.mem)) hobj
      (Change.object?_of_result? hres₀)] at hafter
    by_cases hlt : c.number < c₀.number
    · rw [if_pos (decide_eq_true hlt)] at hafter
      exact ⟨c₀, hc₀.concat_of_le (Nat.le_of_lt hlt), hafter.trans hres₀.symm⟩
    · rw [if_neg (by simpa using hlt)] at hafter
      exact ⟨c, hc₀.concat_of_ge (Nat.not_lt.1 hlt), hafter.trans hres.symm⟩

/-- Changes none of which comes too late leave what the newest of them leaves. -/
theorem InStep.isKept (h : r.InStep k cs) (hof : ∀ c ∈ cs, c.IsOf k)
    (hnew : ∀ c ∈ cs, ∀ a, c.object? = some a → ∀ old, r.store.getByKey? k = some old →
      Store.isOlder a old = false) : cs = [] ∨ Newest.IsKept r k cs := by
  induction h with
  | nil => exact .inl rfl
  | @concat cs c _ htimely ih =>
    have ih := ih (fun c hc => hof c (List.mem_append_left _ hc)) fun c hc =>
      hnew c (List.mem_append_left _ hc)
    have hlast : c ∈ cs ++ [c] := List.mem_append_right _ (.head _)
    obtain ⟨a, hres, hobj⟩ | ⟨d, rfl⟩ := (hof c hlast).cases
    · exact .inr (isKept_written hres hof htimely (hnew c hlast a hobj) ih)
    · exact .inr (isKept_deleted hof htimely ih)

/-- **The last write wins**: whatever the order in which changes of an object are told of, at
versions that are distinct numbers and not older than the copy there was, what is kept is what the
newest of them leaves, as long as none comes too late. Where there is no copy, an object is taken
over, however old it is. -/
theorem last_write_wins (r : Reflector α) (k : Key) {cs : List (Change α)} (hne : cs ≠ [])
    (hof : ∀ c ∈ cs, c.IsOf k) (hdistinct : (cs.map Change.number).Nodup)
    (hnew : ∀ c ∈ cs, ∀ a, c.object? = some a → ∀ old, r.store.getByKey? k = some old →
      Store.isOlder a old = false) :
    ∃ c, Newest cs c ∧ ∀ cs', cs'.Perm cs →
      (r.InStep k cs' → r.copyAfter k cs' = c.result?) ∧
      ∀ told later c' a, cs' = told ++ c' :: later → c'.result? = some a →
        r.copyAfter k told = none → r.copyAfter k (told ++ [c']) = some a := by
  obtain ⟨c, hc⟩ := Newest.exists hne
  refine ⟨c, hc, fun cs' hperm => ⟨fun hsteps => ?_, ?_⟩⟩
  · have hkept := hsteps.isKept (fun c hc => hof c (hperm.mem_iff.1 hc)) fun c hc =>
      hnew c (hperm.mem_iff.1 hc)
    obtain rfl | ⟨c', hc', hcopy⟩ := hkept
    · exact absurd hperm.symm.eq_nil hne
    · rw [hcopy, hc.eq_of_perm hc' hperm hdistinct]
  · rintro told later c' a rfl hres hnone
    have hmem : c' ∈ told ++ c' :: later := List.mem_append_right _ (.head _)
    have hkey := (hof c' (hperm.mem_iff.1 hmem)).key (Change.object?_of_result? hres)
    obtain ⟨-, hafter⟩ | ⟨old, hold, -⟩ := copyAfter_concat_written hres hkey
    · exact hafter
    · cases hnone.symm.trans hold

/-- A warm image is deleted, an older version of it comes late, and a newer one between the two. -/
theorem last_write_wins_reordered :
    let wi : String → WarmImage := fun version =>
      { metadata := { name := some "a", ns := some "ns", resourceVersion := some version }
        image := "" }
    let r : Reflector WarmImage :=
      { resync := .ofSeconds 60, store := (({} : Store WarmImage).upsert (wi "1")).1 }
    let cs := [.added (wi "2"), .deleted (wi "3"), .modified (wi "4")]
    ∃ c, Newest cs c ∧
      r.copyAfter "ns/a" [.deleted (wi "3"), .modified (wi "4"), .added (wi "2")] = c.result? := by
  intro wi r cs
  have hof : ∀ c ∈ cs, c.IsOf "ns/a" := by
    simp only [cs, List.forall_mem_cons]
    exact ⟨⟨_, rfl, by decide, by decide⟩, ⟨_, rfl, by decide, by decide⟩,
      ⟨_, rfl, by decide, by decide⟩, List.forall_mem_nil _⟩
  have hnew : ∀ c ∈ cs, ∀ a, c.object? = some a → ∀ old, r.store.getByKey? "ns/a" = some old →
      Store.isOlder a old = false := by
    simp only [cs, List.forall_mem_cons]
    refine ⟨?_, ?_, ?_, List.forall_mem_nil _⟩ <;>
    · rintro _ ⟨⟩ _ ⟨⟩
      decide
  obtain ⟨c, hc, hkept⟩ := last_write_wins r "ns/a" (List.cons_ne_nil _ _) hof (by decide) hnew
  refine ⟨c, hc, (hkept _ (by decide)).1 ?_⟩
  have h₁ : r.InStep "ns/a" [.deleted (wi "3")] := .concat .nil (by
    rintro _ ⟨⟩
    decide)
  have h₂ := h₁.concat (c := .modified (wi "4")) (by
    intro _ d hd
    cases List.mem_singleton.1 hd
    decide)
  exact h₂.concat (c := .added (wi "2")) (by
    intro hnone
    cases hnone)

/-- An object that is told of after its deletion comes back, and a deletion takes a newer object
out: two changes that come in the wrong order do not leave what the newer one leaves. -/
theorem older_object_returns :
    let wi : String → WarmImage := fun version =>
      { metadata := { name := some "a", ns := some "ns", resourceVersion := some version }
        image := "" }
    let r : Reflector WarmImage := { resync := .ofSeconds 60 }
    ∀ cs ∈ [[.deleted (wi "5"), .added (wi "3")], [.added (wi "5"), .deleted (wi "3")]],
      (∀ c ∈ cs, Change.IsOf "ns/a" c) ∧ (cs.map Change.number).Nodup ∧
      r.store.getByKey? "ns/a" = none ∧
      ∃ c, Newest cs c ∧ r.copyAfter "ns/a" cs ≠ c.result? ∧
        r.copyAfter "ns/a" cs.reverse = c.result? := by
  intro wi r
  simp only [List.forall_mem_cons]
  refine ⟨⟨?_, by decide, rfl, .deleted (wi "5"), ⟨.head _, by decide⟩, by decide, by decide⟩,
    ⟨?_, by decide, rfl, .added (wi "5"), ⟨.head _, by decide⟩, by decide, by decide⟩,
    List.forall_mem_nil _⟩
  · exact ⟨⟨_, rfl, by decide, by decide⟩, ⟨_, rfl, by decide, by decide⟩, List.forall_mem_nil _⟩
  · exact ⟨⟨_, rfl, by decide, by decide⟩, ⟨_, rfl, by decide, by decide⟩, List.forall_mem_nil _⟩

end

end Reflector

end Prewarm
