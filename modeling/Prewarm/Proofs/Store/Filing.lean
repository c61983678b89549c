import Prewarm.Proofs.Store.Writes

/-!
# Objects are filed under their keys

Whatever is written to a store, each object in it is filed under its key (`Filed.write`). A listing
is taken into account one object after the other: what was there under the key of the object is not
awaited any more, and what is there now is the listed object or the one that was there. So at any
point of a listing with distinct keys, no key is both there and still awaited (`Relisting.Sound`).
-/

namespace Prewarm.Store

section
variable {α : Type} [Resource α]

/-- Each object is filed under its key. -/
def Filed (t : Table Key α) : Prop := ∀ k a, t.get? k = some a → keyOf a = k

/-- Whether no two objects of a listing have the same key. -/
def Write.IsDistinct : Write α → Prop
  | .replace listing => (listing.map keyOf).Nodup
  | .upsert _ | .remove _ => True

instance (w : Write α) : Decidable w.IsDistinct :=
  match w with
  | .replace listing => inferInstanceAs (Decidable (listing.map keyOf).Nodup)
  | .upsert _ | .remove _ => inferInstanceAs (Decidable True)

/-- What came of the objects that were there and of the listed ones. -/
def relist (s : Store α) (listing : List α) : Relisting α :=
  listing.foldl Relisting.take ⟨s.items, .empty, []⟩

variable {s : Store α} {w : Write α} {a : α} {t : Table Key α}

/-! ## One object -/

/-- An object that is put under its key is filed. -/
theorem Filed.insert (h : Filed t) (a : α) : Filed (t.insert (keyOf a) a) := by
  intro k b hb
  rw [Table.get?_insert] at hb
  split at hb
  · next hk =>
    cases hb
    exact hk.symm
  · exact h k b hb

/-- Objects stay filed when one is taken out. -/
theorem Filed.erase (h : Filed t) (k : Key) : Filed (t.erase k) := by
  intro k' b hb
  rw [Table.get?_erase] at hb
  split at hb
  · cases hb
  · exact h k' b hb

/-- Objects stay filed when one is written. -/
theorem Filed.upsert (h : Filed s.items) (a : α) : Filed (s.upsert a).1.items := by
  unfold Store.upsert
  split
  · split
    · exact h
    · exact h.insert a
  · exact h.insert a

/-- Objects stay filed when one is removed. -/
theorem Filed.remove (h : Filed s.items) (a : α) : Filed (s.remove a).1.items := by
  unfold Store.remove
  split
  · exact h.erase _
  · exact h

/-! ## Listings -/

/-- How far a listing was taken into account: objects are filed under their keys, no key is both
there and still to be listed, and none of the objects still to come was taken yet. -/
structure Relisting.Sound (r : Relisting α) (rest : List α) : Prop where
  before : Filed r.before
  after : Filed r.after
  disjoint : ∀ k, r.after.get? k ≠ none → r.before.get? k = none
  fresh : ∀ a ∈ rest, r.after.get? (keyOf a) = none

/-- What is there or was there and is still to be listed. -/
def Relisting.content (r : Relisting α) (k : Key) : Option α :=
  (r.after.get? k).or (r.before.get? k)

/-- An object comes to stand under a key, in place of the one that was there and is not awaited any
more. -/
theorem Relisting.Sound.file {r : Relisting α} {rest : List α} {b : α}
    (h : r.Sound (a :: rest)) (ns : List (Note α)) (hnotin : keyOf a ∉ rest.map keyOf)
    (hb : keyOf b = keyOf a) :
    Sound ⟨r.before.erase (keyOf a), r.after.insert (keyOf a) b, ns⟩ rest := by
  refine ⟨h.before.erase _, ?_, fun k hk => ?_, fun c hc => ?_⟩
  · rw [← hb]
    exact h.after.insert b
  · rw [Table.get?_insert] at hk
    rw [Table.get?_erase]
    split
    · rfl
    · next hka =>
      rw [if_neg hka] at hk
      exact h.disjoint k hk
  · have hne : keyOf c ≠ keyOf a := fun e => hnotin (e ▸ List.mem_map_of_mem hc)
    rw [Table.get?_insert_of_ne hne]
    exact h.fresh c (List.mem_cons_of_mem a hc)

/-- When a listed object is filed, what is there, or was and is still to be listed, changes only
under its key. -/
theorem Relisting.content_file (r : Relisting α) (b : α) (ns : List (Note α)) (k : Key) :
    content ⟨r.before.erase (keyOf a), r.after.insert (keyOf a) b, ns⟩ k =
      if k = keyOf a then some b else r.content k := by
  unfold content
  rw [Table.get?_insert, Table.get?_erase]
  split <;> simp

/-- What is there after a listing is what there is, but for what was not listed. -/
theorem Relisting.Sound.after_eq {r : Relisting α} {rest : List α} (h : r.Sound rest) (k : Key) :
    r.after.get? k = if r.before.get? k = none then r.content k else none := by
  unfold content
  cases hafter : r.after.get? k with
  | none =>
    split
    · next hbefore => rw [hbefore, Option.none_or]
    · rfl
  | some b => rw [if_pos (h.disjoint k (by simp [hafter])), Option.some_or]

omit [Resource α] in
/-- What was there and is still to be listed is not lost. -/
theorem Relisting.content_ne_none {r : Relisting α} {k : Key} (h : r.before.get? k ≠ none) :
    r.content k ≠ none := by
  unfold content
  cases r.after.get? k with
  | none => exact h
  | some b => exact Option.some_ne_none b

omit [Resource α] in
/-- Nothing is awaited any more under a key that has nothing. -/
theorem erase_of_get?_none {k : Key} (h : t.get? k = none) : t.erase k = t := by
  have hall : t.entries.filter (fun e => decide (e.1 ≠ k)) = t.entries := by
    refine List.filter_eq_self.2 fun e he => decide_eq_true fun hk => ?_
    have hsome : t.get? k = some e.2 := Table.get?_eq_some_iff.2 (hk ▸ he)
    rw [h] at hsome
    cases hsome
  cases t
  unfold Table.erase Table.filter
  congr

/-- One more object of a listing can be taken into account if none with its key comes later. -/
theorem Relisting.Sound.take {r : Relisting α} {rest : List α} (h : r.Sound (a :: rest))
    (hnotin : keyOf a ∉ rest.map keyOf) : (r.take a).Sound rest := by
  unfold Relisting.take
  split
  · next old hold =>
    split
    · exact h.file _ hnotin (h.before _ old hold)
    · exact h.file _ hnotin rfl
  · next hnone =>
    have hfile := h.file (r.notes ++ [.added a]) hnotin rfl
    rwa [erase_of_get?_none hnone] at hfile

/-- All objects of a listing can be taken into account if no two have the same key. -/
theorem Relisting.Sound.foldl_take {listing : List α} {r : Relisting α} (h : r.Sound listing)
    (hnodup : (listing.map keyOf).Nodup) : (listing.foldl Relisting.take r).Sound [] := by
  induction listing generalizing r with
  | nil => exact h
  | cons a listing ih =>
    obtain ⟨hnotin, hnodup⟩ := List.nodup_cons.1 hnodup
    exact ih (h.take hnotin) hnodup

/-- A store whose objects are filed takes a listing into account to the end. -/
theorem Filed.relist (h : Filed s.items) {listing : List α} (hnodup : (listing.map keyOf).Nodup) :
    (s.relist listing).Sound [] :=
  Relisting.Sound.foldl_take ⟨h, nofun, nofun, fun _ _ => rfl⟩ hnodup

/-- A write keeps the objects filed under their keys. -/
theorem Filed.write (h : Filed s.items) (hw : w.IsDistinct) : Filed (s.write w).1.items := by
  cases w with
  | upsert a => exact h.upsert a
  | remove a => exact h.remove a
  | replace listing => exact (h.relist hw).after

/-- The keys of the objects that a listing lacks are those that were not listed. -/
theorem Relisting.gone_keys {r : Relisting α} (h : Filed r.before) :
    (r.gone.map keyOf).Perm r.before.keys := by
  have hperm : (r.before.sorted (fun a b => decide (a ≤ b))).Perm r.before.entries :=
    List.mergeSort_perm _ _
  have hkeys : r.before.entries.map (fun e => keyOf e.2) = r.before.keys :=
    List.map_congr_left fun e he => h e.1 e.2 (Table.get?_eq_some_iff.2 he)
  unfold Relisting.gone
  rw [List.map_map]
  exact (hperm.map _).trans (.of_eq hkeys)

end

end Prewarm.Store
