/-!
# Finite tables

A `Table` maps keys to values, one value for each key. The tables of the controller are small, so
one is a list of entries whose keys are distinct, and distinctness is part of the type. What a
table holds is read with `get?`; `get?_insert` and `get?_erase` say what a write does to that
reading.
-/

namespace Prewarm

/-- A map with finitely many keys, each with one value. -/
structure Table (κ α : Type) where
  entries : List (κ × α)
  nodup : (entries.map Prod.fst).Nodup

namespace Table

variable {κ α β : Type}

/-- The table without entries. -/
def empty : Table κ α := ⟨[], .nil⟩

instance : EmptyCollection (Table κ α) := ⟨empty⟩

instance : Inhabited (Table κ α) := ⟨empty⟩

instance [DecidableEq κ] [DecidableEq α] : DecidableEq (Table κ α) := fun s t =>
  if h : s.entries = t.entries then
    isTrue (by cases s; cases t; simp_all)
  else
    isFalse (fun e => h (e ▸ rfl))

/-- The keys that have a value. -/
def keys (t : Table κ α) : List κ := t.entries.map Prod.fst

/-- The values, one for each key. -/
def values (t : Table κ α) : List α := t.entries.map Prod.snd

/-- The number of keys that have a value. -/
def size (t : Table κ α) : Nat := t.entries.length

section
variable [DecidableEq κ]

/-- The value of a key. -/
def get? (t : Table κ α) (k : κ) : Option α :=
  (t.entries.find? (fun e => decide (e.1 = k))).map Prod.snd

/-- Whether a key has a value. -/
def contains (t : Table κ α) (k : κ) : Bool := (t.get? k).isSome

/-- The entries that satisfy a test. -/
def filter (t : Table κ α) (p : κ → α → Bool) : Table κ α :=
  ⟨t.entries.filter (fun e => p e.1 e.2), t.nodup.sublist (List.filter_sublist.map _)⟩

/-- The table without a key. -/
def erase (t : Table κ α) (k : κ) : Table κ α := t.filter (fun k' _ => decide (k' ≠ k))

/-- The table with a value for a key, in place of the one it may have had. -/
def insert (t : Table κ α) (k : κ) (v : α) : Table κ α where
  entries := (k, v) :: (t.erase k).entries
  nodup := by
    refine List.nodup_cons.2 ⟨fun h => ?_, (t.erase k).nodup⟩
    obtain ⟨e, he, rfl⟩ := List.mem_map.1 h
    have := (List.mem_filter.1 he).2
    simp at this

/-- A table of a list of entries. Of two entries for one key the later stands. -/
def ofList (es : List (κ × α)) : Table κ α := es.foldl (fun t e => t.insert e.1 e.2) empty

/-- The entries in ascending order of their keys. -/
def sorted (t : Table κ α) (le : κ → κ → Bool) : List (κ × α) :=
  t.entries.mergeSort (fun a b => le a.1 b.1)

@[simp] theorem get?_empty (k : κ) : (empty : Table κ α).get? k = none := rfl

theorem get?_eq_some_iff {t : Table κ α} {k : κ} {v : α} :
    t.get? k = some v ↔ (k, v) ∈ t.entries := by
  obtain ⟨es, h⟩ := t
  simp only [get?]
  induction es with
  | nil => simp
  | cons e es ih =>
    obtain ⟨k', v'⟩ := e
    have hn := (List.nodup_cons.1 h)
    rw [List.find?_cons]
    by_cases hk : k' = k
    · subst hk
      have hnot : ∀ w, (k', w) ∉ es := fun w hw => hn.1 (List.mem_map.2 ⟨_, hw, rfl⟩)
      simp [hnot, eq_comm]
    · have hk' : k ≠ k' := fun e => hk e.symm
      simp [hk, hk', ih hn.2]

theorem mem_values_iff {t : Table κ α} {v : α} : v ∈ t.values ↔ ∃ k, t.get? k = some v := by
  simp only [values, List.mem_map, get?_eq_some_iff, Prod.exists, exists_eq_right]

theorem get?_filter (t : Table κ α) (p : κ → α → Bool) (k : κ) :
    (t.filter p).get? k = (t.get? k).filter (p k) := by
  apply Option.ext
  intro v
  rw [get?_eq_some_iff, Option.filter_eq_some_iff, get?_eq_some_iff]
  simp [filter, List.mem_filter]

/-- A key that was erased has no value, and no other key is touched. -/
@[simp] theorem get?_erase (t : Table κ α) (k k' : κ) :
    (t.erase k).get? k' = if k' = k then none else t.get? k' := by
  rw [erase, get?_filter]
  by_cases h : k' = k
  · subst h; cases t.get? k' <;> simp [Option.filter]
  · cases t.get? k' <;> simp [Option.filter, h]

/-- A key that was written has the value written, and no other key is touched. -/
@[simp] theorem get?_insert (t : Table κ α) (k k' : κ) (v : α) :
    (t.insert k v).get? k' = if k' = k then some v else t.get? k' := by
  simp only [get?, insert, List.find?_cons]
  by_cases h : k' = k
  · subst h; simp
  · have h' : k ≠ k' := fun e => h e.symm
    have := get?_erase t k k'
    simp only [get?, h, if_false] at this
    simp [h, h', this]

/-- A key that was written has the value written. -/
theorem get?_insert_self (t : Table κ α) (k : κ) (v : α) : (t.insert k v).get? k = some v := by
  simp

/-- A key that was not written is not touched. -/
theorem get?_insert_of_ne {k k' : κ} (h : k' ≠ k) (t : Table κ α) (v : α) :
    (t.insert k v).get? k' = t.get? k' := by
  simp [h]

/-- A key that was erased has no value. -/
theorem get?_erase_self (t : Table κ α) (k : κ) : (t.erase k).get? k = none := by
  simp

/-- A key that was not erased is not touched. -/
theorem get?_erase_of_ne {k k' : κ} (h : k' ≠ k) (t : Table κ α) :
    (t.erase k).get? k' = t.get? k' := by
  simp [h]

/-- When a list of keys was written, each with a value of its own, these keys have them. -/
theorem get?_foldl_insert (f : κ → α) (ks : List κ) (t : Table κ α) (k : κ) :
    (ks.foldl (fun t k => t.insert k (f k)) t).get? k =
      if k ∈ ks then some (f k) else t.get? k := by
  induction ks generalizing t with
  | nil => rfl
  | cons k' ks ih =>
    rw [List.foldl_cons, ih, get?_insert]
    by_cases hk : k = k' <;> simp [hk]

/-- When entries were written one after another, a key has the value of its last entry, or what it
had if there is none. -/
theorem get?_foldl_insert_entry (es : List (κ × α)) (t : Table κ α) (k : κ) :
    (es.foldl (fun t e => t.insert e.1 e.2) t).get? k =
      ((es.reverse.find? (fun e => decide (e.1 = k))).map Prod.snd).or (t.get? k) := by
  induction es generalizing t with
  | nil => rfl
  | cons e es ih =>
    rw [List.foldl_cons, ih, get?_insert, List.reverse_cons, List.find?_append]
    cases es.reverse.find? (fun e => decide (e.1 = k)) with
    | some e' => rfl
    | none =>
      rw [Option.none_or, List.find?_singleton]
      by_cases hk : e.1 = k
      · rw [if_pos hk.symm, if_pos (decide_eq_true hk)]
        rfl
      · rw [if_neg (Ne.symm hk), if_neg (by simpa using hk), Option.map_none, Option.none_or]

/-- Of the entries for one key the last one stands. -/
theorem get?_ofList (es : List (κ × α)) (k : κ) :
    (ofList es).get? k = (es.reverse.find? (fun e => decide (e.1 = k))).map Prod.snd := by
  unfold ofList
  rw [get?_foldl_insert_entry, get?_empty, Option.or_none]

@[simp] theorem mem_keys_iff {t : Table κ α} {k : κ} : k ∈ t.keys ↔ (t.get? k).isSome := by
  rw [keys, List.mem_map, Option.isSome_iff_exists]
  constructor
  · rintro ⟨⟨k', v⟩, h, rfl⟩; exact ⟨v, get?_eq_some_iff.2 h⟩
  · rintro ⟨v, h⟩; exact ⟨(k, v), get?_eq_some_iff.1 h, rfl⟩

end

end Table

end Prewarm
