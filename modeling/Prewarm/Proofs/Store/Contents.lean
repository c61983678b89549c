import Prewarm.Proofs.Store.Log
import Prewarm.Store.Select

/-!
# What a store holds

Whatever is written to a store, its objects are filed under their keys, so that an object is found
by its name in its namespace, and is selected once. An object makes way only for one that is not
older, so as long as it is neither removed nor missing from a listing, the version under its key
never decreases (`exists_after_of_spares`). Within a write one thing happens after the other
(`happens`): the content changes at once, the observers are told of it, and after a listing the
store counts as synced. `holds_what_was_written` says all of this of every history of a store.
-/

namespace Prewarm

/-- Whether neither the name nor the namespace of an object has a slash. -/
structure Metadata.IsSlashless (m : Metadata) : Prop where
  ns : '/' ∉ (m.ns.getD "").toList
  name : '/' ∉ (m.name.getD "").toList

namespace Store

section
variable {α : Type} [Resource α] {s : Store α} {w : Write α} {ws : List (Write α)} {a b : α}
  {k : Key} {m : Nat} {notes : List (Note α)}

/-- A store after writes one after the other. -/
def after (s : Store α) (ws : List (Write α)) : Store α := ws.foldl (fun s w => (s.write w).1) s

/-! ## Finding and selecting -/

/-- Each object is filed under its key after any writes. -/
theorem Filed.after (h : Filed s.items) (hws : ∀ w ∈ ws, w.IsDistinct) :
    Filed (s.after ws).items := by
  induction ws generalizing s with
  | nil => exact h
  | cons w ws ih =>
    exact ih (h.write (hws w (.head _))) fun w' hw' => hws w' (List.mem_cons_of_mem w hw')

/-- An object is among those of a store if and only if it is filed under its key. -/
theorem Filed.mem_values_iff {t : Table Key α} (h : Filed t) :
    a ∈ t.values ↔ t.get? (keyOf a) = some a := by
  rw [Table.mem_values_iff]
  constructor
  · rintro ⟨k, hk⟩
    rwa [h k a hk]
  · exact fun hk => ⟨keyOf a, hk⟩

/-- No object is in a store twice. -/
theorem Filed.values_nodup {t : Table Key α} (h : Filed t) : t.values.Nodup := by
  have hkeys : t.values.map keyOf = t.keys := by
    unfold Table.values Table.keys
    rw [List.map_map]
    exact List.map_congr_left fun e he => h e.1 e.2 (Table.get?_eq_some_iff.2 he)
  have hnodup : (t.values.map keyOf).Nodup := by
    rw [hkeys]
    exact t.nodup
  exact List.Pairwise.of_map keyOf (fun _ _ hne e => hne (congrArg keyOf e)) hnodup

/-- A look-up finds the object with the key that it is made of. -/
theorem get?_eq_some_iff (h : Filed s.items) (ns name : String) : s.get? ns name = some a ↔
    a ∈ s.items.values ∧ keyOf a = Key.ofParts ns name := by
  rw [h.mem_values_iff]
  constructor
  · intro hget
    have hkey : keyOf a = Key.ofParts ns name := h _ a hget
    refine ⟨?_, hkey⟩
    rw [hkey]
    exact hget
  · rintro ⟨hget, hkey⟩
    rwa [hkey] at hget

/-- Without slashes, the object with a key is the one with the name and the namespace of the key. -/
theorem keyOf_eq_iff {ns name : String} (ha : (metadata a).IsSlashless)
    (hname : ns = "" → '/' ∉ name.toList) :
    keyOf a = Key.ofParts ns name ↔ (metadata a).IsNamed ns name := by
  constructor
  · intro h
    obtain ⟨hns, hn⟩ := Key.ofParts_inj ha.ns ha.name hname h.symm
    exact ⟨hns.symm, hn.symm⟩
  · exact fun h => h.key_eq

/-- The objects that are listed in a namespace are those of the namespace that the selector accepts.
-/
theorem mem_select_iff (s : Store α) (ns : String) (sel : Selector) :
    a ∈ s.select (some ns) sel ↔ a ∈ s.items.values ∧ (metadata a).ns = some ns ∧
      sel.accepts ((metadata a).labels.getD .empty) = true := by
  simp [select, isIn, Metadata.labelMap]

/-! ## Versions -/

/-- The objects that a write names. -/
def Write.objects : Write α → List α
  | .upsert a | .remove a => [a]
  | .replace listing => listing

/-- Whether a write is no removal of the object with a key and no listing that lacks one. -/
def Write.Spares (k : Key) : Write α → Prop
  | .upsert _ => True
  | .remove a => keyOf a ≠ k
  | .replace listing => k ∈ listing.map keyOf

instance (k : Key) (w : Write α) : Decidable (w.Spares k) :=
  match w with
  | .upsert _ => inferInstanceAs (Decidable True)
  | .remove a => inferInstanceAs (Decidable (keyOf a ≠ k))
  | .replace listing => inferInstanceAs (Decidable (k ∈ listing.map keyOf))

/-- Where there was an object there is it or one that is not older. -/
theorem newer_some (old a : α) :
    newer (some old) a = old ∨ newer (some old) a = a ∧ isOlder a old = false := by
  cases h : isOlder a old <;> simp [newer, h]

/-- An object that is spared by a write stays, or makes way for one that is not older. -/
theorem exists_write_of_spares (hw : w.IsDistinct) (hk : w.Spares k)
    (h : s.getByKey? k = some a) : ∃ b, (s.write w).1.getByKey? k = some b ∧
      (b = a ∨ b ∈ w.objects ∧ isOlder b a = false) := by
  have hnewer : ∀ c ∈ w.objects, newer (some a) c = a ∨
      newer (some a) c ∈ w.objects ∧ isOlder (newer (some a) c) a = false := by
    intro c hc
    rcases newer_some a c with hold | ⟨hnew, hnot⟩
    · exact .inl hold
    · rw [hnew]
      exact .inr ⟨hc, hnot⟩
  cases w with
  | upsert c =>
    have hget := getByKey?_upsert_eq s c k
    rw [h] at hget
    split at hget
    · exact ⟨_, hget, hnewer c (.head _)⟩
    · exact ⟨a, hget, .inl rfl⟩
  | remove c =>
    refine ⟨a, (getByKey?_remove s c k).trans ?_, .inl rfl⟩
    rw [if_neg (Ne.symm hk), h]
  | replace listing =>
    obtain ⟨c, hc, hck⟩ := List.mem_map.1 hk
    have hget := getByKey?_replace_eq hw s k
    cases hlisted : listed? listing k with
    | none => simpa [hck] using List.find?_eq_none.1 hlisted c hc
    | some d =>
      rw [hlisted, h, Option.map_some] at hget
      exact ⟨_, hget, hnewer d (List.mem_of_find?_eq_some hlisted)⟩

/-- As long as an object is spared, the version under its key does not decrease. -/
theorem exists_after_of_spares (hws : ∀ w ∈ ws, w.IsDistinct ∧ w.Spares k)
    (hnum : ∀ w ∈ ws, ∀ c ∈ w.objects, ∃ n, (metadata c).versionNumber? = some n)
    (h : s.getByKey? k = some a) (hm : (metadata a).versionNumber? = some m) :
    ∃ b n, (s.after ws).getByKey? k = some b ∧ (metadata b).versionNumber? = some n ∧ m ≤ n := by
  induction ws generalizing s a m with
  | nil => exact ⟨a, m, h, hm, Nat.le_refl m⟩
  | cons w ws ih =>
    obtain ⟨⟨hw, hk⟩, hws⟩ := List.forall_mem_cons.1 hws
    obtain ⟨hnumw, hnum⟩ := List.forall_mem_cons.1 hnum
    obtain ⟨c, hc, hor⟩ := exists_write_of_spares hw hk h
    have hcm : ∃ l, (metadata c).versionNumber? = some l ∧ m ≤ l := by
      rcases hor with rfl | ⟨hmem, hnot⟩
      · exact ⟨m, hm, Nat.le_refl m⟩
      · obtain ⟨l, hl⟩ := hnumw c hmem
        refine ⟨l, hl, ?_⟩
        unfold isOlder at hnot
        simpa [hm, hl] using hnot
    obtain ⟨l, hl, hml⟩ := hcm
    obtain ⟨b, n, hb, hn, hln⟩ := ih hws hnum hc hl
    exact ⟨b, n, hb, hn, Nat.le_trans hml hln⟩

/-- An object that is there after a write was there before or is named by the write. -/
theorem getByKey?_write_mem (hw : w.IsDistinct) (h : (s.write w).1.getByKey? k = some b) :
    s.getByKey? k = some b ∨ b ∈ w.objects := by
  have hnewer : ∀ c ∈ w.objects, newer (s.getByKey? k) c = b →
      s.getByKey? k = some b ∨ b ∈ w.objects := by
    intro c hc hb
    cases hold : s.getByKey? k with
    | none =>
      rw [hold, newer_none] at hb
      exact .inr (hb ▸ hc)
    | some old =>
      rw [hold] at hb
      rcases newer_some old c with hnew | ⟨hnew, -⟩
      · exact .inl (congrArg some (hnew.symm.trans hb))
      · exact .inr ((hnew.symm.trans hb) ▸ hc)
  cases w with
  | upsert c =>
    replace h := (getByKey?_upsert_eq s c k).symm.trans h
    split at h
    · exact hnewer c (.head _) (Option.some.inj h)
    · exact .inl h
  | remove c =>
    replace h := (getByKey?_remove s c k).symm.trans h
    split at h
    · cases h
    · exact .inl h
  | replace listing =>
    replace h := (getByKey?_replace_eq hw s k).symm.trans h
    obtain ⟨c, hc, hb⟩ := Option.map_eq_some_iff.1 h
    exact hnewer c (List.mem_of_find?_eq_some hc) hb

/-- What is filed is what was filed before the writes, or what one of them names. -/
theorem getByKey?_after_mem (hws : ∀ w ∈ ws, w.IsDistinct)
    (h : (s.after ws).getByKey? k = some b) :
    s.getByKey? k = some b ∨ ∃ w ∈ ws, b ∈ w.objects := by
  induction ws generalizing s with
  | nil => exact .inl h
  | cons w ws ih =>
    obtain ⟨hw, hws⟩ := List.forall_mem_cons.1 hws
    rcases ih hws h with hb | ⟨w', hw', hb⟩
    · rcases getByKey?_write_mem hw hb with hb | hb
      · exact .inl hb
      · exact .inr ⟨w, .head _, hb⟩
    · exact .inr ⟨w', List.mem_cons_of_mem w hw', hb⟩

/-! ## Whether the store is synced -/

/-- One of the things that happen to a store within a write. -/
inductive Happening (α : Type) where
  /-- The content changes. -/
  | filed (items : Table Key α)
  /-- An observer is told of a change. -/
  | told (observer : String) (note : Note α)
  /-- The store counts as synced from now on. -/
  | synced

/-- A store after something has happened. -/
def make (s : Store α) : Happening α → Store α
  | .filed items => { s with items }
  | .told .. => s
  | .synced => { s with synced := true }

/-- What is left to happen once the observers were told of a write. -/
def Write.last : Write α → List (Happening α)
  | .upsert _ | .remove _ => []
  | .replace _ => [.synced]

/-- What happens in a write of which observers are told by `notes`, the first first. -/
def happens (s : Store α) (w : Write α) (notes : List (Note α)) : List (Happening α) :=
  .filed (s.write w).1.items :: (s.deliveries notes).map (fun c => .told c.1 c.2) ++ w.last

/-- A store counts as synced after a write if it did before or a listing was written. -/
@[simp] theorem write_synced (s : Store α) (w : Write α) : (s.write w).1.synced = true ↔
    s.synced = true ∨ ∃ listing, w = .replace listing := by
  cases w with
  | upsert a =>
    simp only [write, upsert]
    split
    · split <;> simp
    · simp
  | remove a =>
    simp only [write, remove]
    split <;> simp
  | replace listing => simp [write, replace]

/-- A store counts as synced after writes if it did before or one of them was a listing. -/
@[simp] theorem after_synced (s : Store α) (ws : List (Write α)) : (s.after ws).synced = true ↔
    s.synced = true ∨ ∃ listing, .replace listing ∈ ws := by
  induction ws generalizing s with
  | nil => simp [after]
  | cons w ws ih =>
    have hcons : s.after (w :: ws) = (s.write w).1.after ws := rfl
    rw [hcons, ih, write_synced, or_assoc]
    simp only [List.mem_cons, exists_or, eq_comm]

omit [Resource α] in
/-- A store counts as synced after what happens in a write if it did before or it came to in that.
-/
theorem foldl_make_synced (hs : List (Happening α)) (s : Store α) :
    (hs.foldl make s).synced = true ↔ s.synced = true ∨ .synced ∈ hs := by
  induction hs generalizing s with
  | nil => simp
  | cons h hs ih =>
    rw [List.foldl_cons, ih]
    cases h <;> simp [make]

omit [Resource α] in
/-- What observers are told of changes nothing about a store. -/
@[simp] theorem foldl_make_told (calls : List (String × Note α)) (s : Store α) :
    (calls.map fun c => Happening.told c.1 c.2).foldl make s = s := by
  induction calls with
  | nil => rfl
  | cons c calls ih => exact ih

/-- What happens in a write makes of the store what the write does. -/
@[simp] theorem foldl_make_happens (s : Store α) (w : Write α) (notes : List (Note α)) :
    (s.happens w notes).foldl make s = (s.write w).1 := by
  unfold happens
  rw [List.cons_append, List.foldl_cons, List.foldl_append, foldl_make_told]
  cases w with
  | upsert a =>
    simp only [write, upsert]
    split
    · split <;> rfl
    · rfl
  | remove a =>
    simp only [write, remove]
    split <;> rfl
  | replace listing => rfl

/-- Within a write a store comes to count as synced when all that happens in a listing has
happened, and not before. -/
theorem synced_of_happens {done rest : List (Happening α)} (h : s.happens w notes = done ++ rest) :
    (done.foldl make s).synced = true ↔
      s.synced = true ∨ rest = [] ∧ ∃ listing, w = .replace listing := by
  rw [foldl_make_synced]
  refine or_congr_right ⟨fun hmem => ?_, ?_⟩
  · unfold happens at h
    rcases List.append_eq_append_iff.1 h with ⟨cs, rfl, hlast⟩ | ⟨cs, htold, -⟩
    · have hcs : .synced ∈ cs := by simpa using hmem
      cases w with
      | upsert a =>
        obtain ⟨rfl, -⟩ := List.append_eq_nil_iff.1 hlast.symm
        cases hcs
      | remove a =>
        obtain ⟨rfl, -⟩ := List.append_eq_nil_iff.1 hlast.symm
        cases hcs
      | replace listing =>
        rcases List.singleton_eq_append_iff.1 hlast with ⟨rfl, -⟩ | ⟨-, rfl⟩
        · cases hcs
        · exact ⟨rfl, listing, rfl⟩
    · have hin := List.mem_append_left cs hmem
      rw [← htold] at hin
      simp at hin
  · rintro ⟨rfl, listing, rfl⟩
    rw [List.append_nil] at h
    rw [← h]
    simp [happens, Write.last]

/-! ## Histories -/

/-- A store that began without objects, whatever was written to it, as long as no listing had two
objects with the same key.

Each object is filed under its key. So a look-up finds the object that its key names; if no names
and namespaces have slashes, that is the one with this name and namespace, and a namespace that is
not set is an empty one. A selection in a namespace has every object there whose labels are
accepted, each once.

If all versions are numbers, the version under a key does not decrease while more is written, unless
its object is removed or missing from a listing.

The store is synced if there was a listing. In the next write it comes to be synced if that is the
first listing, after everything else that happens in it, and does not cease to be. -/
theorem holds_what_was_written (observers : List String) (hws : ∀ w ∈ ws, w.IsDistinct) :
    let s := ({ observers } : Store α).after ws
    (∀ k a, s.getByKey? k = some a → k = keyOf a) ∧
    (∀ ns name a, s.get? ns name = some a ↔
      a ∈ s.items.values ∧ keyOf a = Key.ofParts ns name) ∧
    ((∀ a ∈ s.items.values, (metadata a).IsSlashless) →
      ∀ ns name, (ns = "" → '/' ∉ name.toList) → ∀ a,
        s.get? ns name = some a ↔ a ∈ s.items.values ∧ (metadata a).IsNamed ns name) ∧
    (∀ ns sel, (s.select (some ns) sel).Nodup ∧
      ∀ a, a ∈ s.select (some ns) sel ↔ a ∈ s.items.values ∧ (metadata a).ns = some ns ∧
        sel.accepts ((metadata a).labels.getD .empty) = true) ∧
    (∀ ws' k, (∀ w ∈ ws', w.IsDistinct ∧ w.Spares k) →
      (∀ w ∈ ws ++ ws', ∀ c ∈ w.objects, ∃ n, (metadata c).versionNumber? = some n) →
      ∀ a, s.getByKey? k = some a → ∃ b m n, (s.after ws').getByKey? k = some b ∧
        (metadata a).versionNumber? = some m ∧ (metadata b).versionNumber? = some n ∧ m ≤ n) ∧
    ∀ w notes, Told s w notes → (s.happens w notes).foldl make s = (s.write w).1 ∧
      ∀ done rest, s.happens w notes = done ++ rest → ((done.foldl make s).synced = true ↔
        (∃ listing, .replace listing ∈ ws) ∨ rest = [] ∧ ∃ listing, w = .replace listing) := by
  intro s
  have hempty : Filed ({ observers } : Store α).items := nofun
  have hfiled : Filed s.items := hempty.after hws
  have hsynced : s.synced = true ↔ ∃ listing, .replace listing ∈ ws :=
    (after_synced _ ws).trans (by simp)
  refine ⟨fun k a h => (hfiled k a h).symm, fun ns name a => get?_eq_some_iff hfiled ns name,
    fun hall ns name hname a => ?_, fun ns sel => ⟨?_, fun a => mem_select_iff s ns sel⟩,
    fun ws' k hws' hnum a h => ?_, fun w notes _ => ⟨foldl_make_happens s w notes,
      fun done rest h => ?_⟩⟩
  · rw [get?_eq_some_iff hfiled]
    exact and_congr_right fun ha => keyOf_eq_iff (hall a ha) hname
  · exact hfiled.values_nodup.filter _
  · rcases getByKey?_after_mem hws h with hbefore | ⟨w, hw, hmem⟩
    · cases hbefore
    · obtain ⟨m, hm⟩ := hnum w (List.mem_append_left ws' hw) a hmem
      have hnum' := fun w hw => hnum w (List.mem_append_right ws hw)
      obtain ⟨b, n, hb, hn, hmn⟩ := exists_after_of_spares hws' hnum' h hm
      exact ⟨b, m, n, hb, hm, hn, hmn⟩
  · rw [← hsynced]
    exact synced_of_happens h

end

/-- Two warm images are listed, one of them is updated, an older version of it is ignored, and the
other one is removed. A listing with an older version leaves the newer one. -/
theorem holds_what_was_written_relisted :
    let wi : String → String → WarmImage := fun name version =>
      { metadata := { name := some name, ns := some "ns", resourceVersion := some version }
        image := "" }
    let ws : List (Write WarmImage) := [.replace [wi "a" "1", wi "b" "1"], .upsert (wi "a" "3"),
      .upsert (wi "a" "2"), .remove (wi "b" "2")]
    let s := ({ observers := ["x"] } : Store WarmImage).after ws
    s.get? "ns" "a" = some (wi "a" "3") ∧ (metadata (wi "a" "3")).IsNamed "ns" "a" ∧
      wi "a" "3" ∈ s.select (some "ns") [] ∧ (s.select (some "ns") []).Nodup ∧
      (∃ b n, (s.after [.replace [wi "c" "1", wi "a" "2"]]).getByKey? "ns/a" = some b ∧
        (metadata b).versionNumber? = some n ∧ 3 ≤ n) ∧
      s.synced = true := by
  intro wi ws s
  have hws : ∀ w ∈ ws, w.IsDistinct := by decide +kernel
  have hws' : ∀ w ∈ [Write.replace [wi "c" "1", wi "a" "2"]], w.IsDistinct ∧ w.Spares "ns/a" := by
    decide +kernel
  have hnum : ∀ w ∈ ws ++ [Write.replace [wi "c" "1", wi "a" "2"]], ∀ c ∈ w.objects,
      ∃ n, (metadata c).versionNumber? = some n := by
    have hsome : ∀ w ∈ ws ++ [Write.replace [wi "c" "1", wi "a" "2"]], ∀ c ∈ w.objects,
        ((metadata c).versionNumber?).isSome = true := by decide +kernel
    exact fun w hw c hc => Option.isSome_iff_exists.1 (hsome w hw c hc)
  have hvalues : s.items.values = [wi "a" "3"] := by decide +kernel
  have hnamed : (metadata (wi "a" "3")).IsNamed "ns" "a" := ⟨rfl, rfl⟩
  obtain ⟨-, -, hget, hselect, hversion, hsynced⟩ :=
    holds_what_was_written ["x"] hws
  have hmem : wi "a" "3" ∈ s.items.values := hvalues ▸ .head _
  have hslashless : ∀ a ∈ s.items.values, (metadata a).IsSlashless := by
    rw [hvalues]
    exact List.forall_mem_singleton.2 ⟨by decide, by decide⟩
  have ha : s.get? "ns" "a" = some (wi "a" "3") :=
    (hget hslashless "ns" "a" nofun (wi "a" "3")).2 ⟨hmem, hnamed⟩
  obtain ⟨hnodup, hin⟩ := hselect "ns" []
  refine ⟨ha, hnamed, (hin _).2 ⟨hmem, rfl, rfl⟩, hnodup, ?_, ?_⟩
  · obtain ⟨b, m, n, hb, hm, hn, hmn⟩ := hversion _ _ hws' hnum (wi "a" "3") ha
    obtain rfl : 3 = m := by
      have h3 : (metadata (wi "a" "3")).versionNumber? = some 3 := by decide +kernel
      exact Option.some.inj (h3.symm.trans hm)
    exact ⟨b, n, hb, hn, hmn⟩
  · have hfirst := (hsynced (.remove (wi "b" "2")) _ (told_write s _)).2 [] _ rfl
    exact hfirst.2 (.inl ⟨_, .head _⟩)

end Store

end Prewarm
