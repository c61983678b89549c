import Prewarm.Store

/-!
# Writes to a store

The three ways in which a store is written, as data, so that a history of a store is a list of
writes; and what each of them makes of the content. Whether an object is filed alone or comes in a
listing, it takes the place of the one that is filed unless it is older (`newer`):
`getByKey?_upsert_eq` and `getByKey?_replace_eq` say so for every key.
-/

namespace Prewarm.Store

section
variable {α : Type} [Resource α] {s : Store α} {a : α} {k : Key} {as : List α} {old? : Option α}

/-- Something that is done to a store. -/
inductive Write (α : Type) where
  | upsert (a : α)
  | remove (a : α)
  | replace (listing : List α)

/-- A store after a write, and the changes that observers are told of. -/
def write (s : Store α) : Write α → Store α × List (Note α)
  | .upsert a => s.upsert a
  | .remove a => s.remove a
  | .replace listing => s.replace listing

/-- What comes to be filed where an object may have been: the one that is written, unless it is
older than that. -/
def newer (old? : Option α) (a : α) : α :=
  match old? with
  | none => a
  | some old => if isOlder a old then old else a

/-- Where nothing is filed, what is written comes to be. -/
@[simp] theorem newer_none (a : α) : newer none a = a := rfl

/-- An object that is not older than the one that is filed takes its place. -/
theorem newer_of_not_isOlder (h : ∀ old, old? = some old → isOlder a old = false) :
    newer old? a = a := by
  cases old? with
  | none => rfl
  | some old => simp [newer, h old rfl]

/-- The object that a listing has for a key. -/
def listed? (listing : List α) (k : Key) : Option α :=
  listing.find? fun a => decide (keyOf a = k)

/-! ## One object -/

/-- A store after an object was filed: under its key it has the newer of that object and the one
that was there, and nothing changes under any other. -/
theorem getByKey?_upsert_eq (s : Store α) (a : α) (k : Key) : (s.upsert a).1.getByKey? k =
    if k = keyOf a then some (newer (s.getByKey? k) a) else s.getByKey? k := by
  unfold upsert
  split
  · next old hold =>
    have hthere : s.getByKey? (keyOf a) = some old := hold
    split
    · next holder =>
      split
      · next hk => simp [hk, hthere, newer, holder]
      · rfl
    · next holder =>
      refine (Table.get?_insert ..).trans ?_
      by_cases hk : k = keyOf a
      · simp [hk, hthere, newer, holder]
      · simp [hk, getByKey?]
  · next hnone =>
    have hthere : s.getByKey? (keyOf a) = none := hnone
    refine (Table.get?_insert ..).trans ?_
    by_cases hk : k = keyOf a
    · simp [hk, hthere, newer]
    · simp [hk, getByKey?]

/-- An object that is not older than the one that is filed under its key takes its place, and
nothing else changes. -/
theorem getByKey?_upsert (h : ∀ old, s.getByKey? (keyOf a) = some old → isOlder a old = false)
    (k : Key) : (s.upsert a).1.getByKey? k = if k = keyOf a then some a else s.getByKey? k := by
  rw [getByKey?_upsert_eq]
  split
  · next hk => rw [hk, newer_of_not_isOlder h]
  · rfl

/-- A removed object is there no more, whatever its version, and nothing else changes. -/
theorem getByKey?_remove (s : Store α) (a : α) (k : Key) :
    (s.remove a).1.getByKey? k = if k = keyOf a then none else s.getByKey? k := by
  unfold remove
  split
  · exact Table.get?_erase ..
  · next hnone =>
    split
    · next hk => exact hk ▸ hnone
    · rfl

/-! ## Listings -/

/-- In a listing of distinct objects no key of one comes again. -/
theorem listed?_eq_none (hnotin : keyOf a ∉ as.map keyOf) : listed? as (keyOf a) = none := by
  refine List.find?_eq_none.2 fun b hb => ?_
  simpa using fun e => hnotin (List.mem_map.2 ⟨b, hb, e⟩)

namespace Relisting

variable {r : Relisting α}

/-- The key of a listed object is not awaited any more. -/
theorem get?_before_take (r : Relisting α) (a : α) (k : Key) :
    (r.take a).before.get? k = if k = keyOf a then none else r.before.get? k := by
  unfold take
  split
  · split <;> exact Table.get?_erase ..
  · next hnone =>
    split
    · next hk => exact hk ▸ hnone
    · rfl

/-- An object of a listing that is taken over comes under its key, unless the one that was there is
newer. -/
theorem get?_after_take (r : Relisting α) (a : α) (k : Key) : (r.take a).after.get? k =
    if k = keyOf a then some (newer (r.before.get? k) a) else r.after.get? k := by
  unfold take
  split
  · next old hold =>
    split
    · next holder =>
      refine (Table.get?_insert ..).trans ?_
      by_cases hk : k = keyOf a <;> simp [hk, hold, newer, holder]
    · next holder =>
      refine (Table.get?_insert ..).trans ?_
      by_cases hk : k = keyOf a <;> simp [hk, hold, newer, holder]
  · next hnone =>
    refine (Table.get?_insert ..).trans ?_
    by_cases hk : k = keyOf a <;> simp [hk, hnone, newer]

/-- After a listing of distinct objects each key has its listed object, or the one that was there if
that is newer. -/
theorem get?_foldl_take (hnodup : (as.map keyOf).Nodup) (r : Relisting α) (k : Key) :
    (as.foldl take r).after.get? k =
      ((listed? as k).map (newer (r.before.get? k))).or (r.after.get? k) := by
  induction as generalizing r with
  | nil => rfl
  | cons a as ih =>
    obtain ⟨hnotin, hnodup⟩ := List.nodup_cons.1 hnodup
    rw [List.foldl_cons, ih hnodup, get?_after_take, get?_before_take]
    by_cases hk : k = keyOf a
    · have hnone := listed?_eq_none hnotin
      unfold listed? at hnone ⊢
      simp [hk, hnone]
    · simp [listed?, hk, Ne.symm hk]

end Relisting

/-- A store after a listing has, under each key of the listing, the newer of the listed object and
the one that was there, and nothing under any other. -/
theorem getByKey?_replace_eq (hnodup : (as.map keyOf).Nodup) (s : Store α) (k : Key) :
    (s.replace as).1.getByKey? k = (listed? as k).map (newer (s.getByKey? k)) :=
  (Relisting.get?_foldl_take hnodup ⟨s.items, .empty, []⟩ k).trans Option.or_none

/-- A store after a listing holds just what the listing does, if that is not older than what was
there. -/
theorem getByKey?_replace (hnodup : (as.map keyOf).Nodup)
    (h : ∀ a ∈ as, ∀ old, s.getByKey? (keyOf a) = some old → isOlder a old = false) (k : Key) :
    (s.replace as).1.getByKey? k = as.find? (fun a => decide (keyOf a = k)) := by
  rw [getByKey?_replace_eq hnodup]
  show (listed? as k).map _ = listed? as k
  cases hlisted : listed? as k with
  | none => rfl
  | some a =>
    have hmem : a ∈ as := List.mem_of_find?_eq_some hlisted
    obtain rfl : keyOf a = k := by simpa using List.find?_some hlisted
    simp [newer_of_not_isOlder (h a hmem)]

end

end Prewarm.Store
