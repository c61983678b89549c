import Prewarm.Proofs.Store.Filing
import Prewarm.WarmImage

/-!
# What observers are told is a log of the store

One who is told of the changes of a store can keep a copy of it: a change says how the copy is to be
changed, and fits the copy only if the copy is what the store was (`Note.apply?`). The changes of a
write take a copy of the content before the write to one of the content after it (`Told.replays`),
whatever the order in which the objects that a listing lacks are told of. So each observer of a run
hears the same changes, and they replay from nothing to the content of the store (`log_replays`).
-/

namespace Prewarm

section
variable {α : Type} [Resource α]

/-! ## Copies -/

/-- A copy of the objects after a change, if the change fits it: what is added is not there, what is
updated is there as it was, and what is deleted is there. -/
def Note.apply? [DecidableEq α] (t : Table Key α) : Note α → Option (Table Key α)
  | .added a => if t.get? (keyOf a) = none then some (t.insert (keyOf a) a) else none
  | .updated old a => if t.get? (keyOf a) = some old then some (t.insert (keyOf a) a) else none
  | .deleted a => if t.contains (keyOf a) then some (t.erase (keyOf a)) else none

/-- A copy of the objects after changes one after the other, if each of them fits. -/
def Note.replay? [DecidableEq α] (t : Table Key α) (notes : List (Note α)) :
    Option (Table Key α) :=
  notes.foldlM Note.apply? t

namespace Note

variable [DecidableEq α] {objects objects' objects'' : Key → Option α}
  {notes notes' : List (Note α)} {a old : α}

/-- Changes that fit every copy of some objects and make it one of others. -/
def Replays (objects objects' : Key → Option α) (notes : List (Note α)) : Prop :=
  ∀ t : Table Key α, (∀ k, t.get? k = objects k) →
    ∃ t', replay? t notes = some t' ∧ ∀ k, t'.get? k = objects' k

/-- No changes leave the objects as they are. -/
theorem replays_nil (h : ∀ k, objects' k = objects k) : Replays objects objects' [] :=
  fun t ht => ⟨t, rfl, fun k => (ht k).trans (h k).symm⟩

/-- Changes that fit one after the other fit as one list. -/
theorem Replays.append (h : Replays objects objects' notes)
    (h' : Replays objects' objects'' notes') : Replays objects objects'' (notes ++ notes') := by
  intro t ht
  obtain ⟨t', hrun, ht'⟩ := h t ht
  obtain ⟨t'', hrun', ht''⟩ := h' t' ht'
  refine ⟨t'', ?_, ht''⟩
  unfold replay? at hrun hrun' ⊢
  rw [List.foldlM_append, hrun]
  exact hrun'

/-- One change fits if it can be made in every copy. -/
theorem replays_of_apply {n : Note α}
    (h : ∀ t : Table Key α, (∀ k, t.get? k = objects k) →
      ∃ t', n.apply? t = some t' ∧ ∀ k, t'.get? k = objects' k) :
    Replays objects objects' [n] := by
  intro t ht
  obtain ⟨t', happly, ht'⟩ := h t ht
  refine ⟨t', ?_, ht'⟩
  unfold replay?
  rw [List.foldlM_cons, happly]
  rfl

/-- That an object was added fits where there was none. -/
theorem replays_added (hnone : objects (keyOf a) = none)
    (h : ∀ k, objects' k = if k = keyOf a then some a else objects k) :
    Replays objects objects' [.added a] := by
  refine replays_of_apply fun t ht => ⟨_, if_pos ((ht _).trans hnone), fun k => ?_⟩
  rw [Table.get?_insert, h, ht]

/-- That an object was updated fits where it was as is told. -/
theorem replays_updated (hold : objects (keyOf a) = some old)
    (h : ∀ k, objects' k = if k = keyOf a then some a else objects k) :
    Replays objects objects' [.updated old a] := by
  refine replays_of_apply fun t ht => ⟨_, if_pos ((ht _).trans hold), fun k => ?_⟩
  rw [Table.get?_insert, h, ht]

/-- That an object was deleted fits where there was one. -/
theorem replays_deleted (hsome : objects (keyOf a) ≠ none)
    (h : ∀ k, objects' k = if k = keyOf a then none else objects k) :
    Replays objects objects' [.deleted a] := by
  refine replays_of_apply fun t ht => ⟨_, if_pos ?_, fun k => ?_⟩
  · rw [Table.contains, ht]
    exact Option.isSome_iff_ne_none.2 hsome
  · rw [Table.get?_erase, h, ht]

/-- Objects with distinct keys that are all there are deleted one after the other. -/
theorem replays_deleted_all {gone : List α} (hnodup : (gone.map keyOf).Nodup)
    (hthere : ∀ a ∈ gone, objects (keyOf a) ≠ none)
    (h : ∀ k, objects' k = if k ∈ gone.map keyOf then none else objects k) :
    Replays objects objects' (gone.map .deleted) := by
  induction gone generalizing objects with
  | nil => exact replays_nil fun k => h k
  | cons a gone ih =>
    obtain ⟨hnotin, hnodup⟩ := List.nodup_cons.1 hnodup
    have hfirst : Replays objects (fun k => if k = keyOf a then none else objects k) [.deleted a] :=
      replays_deleted (hthere a (.head _)) fun _ => rfl
    refine hfirst.append (ih hnodup (fun b hb => ?_) fun k => ?_)
    · have hne : keyOf b ≠ keyOf a := fun e => hnotin (e ▸ List.mem_map_of_mem hb)
      rw [if_neg hne]
      exact hthere b (List.mem_cons_of_mem a hb)
    · rw [h k, List.map_cons]
      by_cases hk : k = keyOf a
      · simp [hk]
      · simp [hk]

end Note

namespace Store

/-! ## Observers -/

/-- What observers can be told of a write. The objects that a listing lacks are told of last and in
any order. -/
inductive Told (s : Store α) : Write α → List (Note α) → Prop
  | upsert (a : α) : Told s (.upsert a) (s.upsert a).2
  | remove (a : α) : Told s (.remove a) (s.remove a).2
  | replace (listing : List α) {gone : List α} :
      gone.Perm (s.relist listing).gone →
      Told s (.replace listing) ((s.relist listing).notes ++ gone.map .deleted)

/-- What one observer hears of calls. -/
def heard (o : String) (calls : List (String × Note α)) : List (Note α) :=
  calls.filterMap fun c => if c.1 = o then some c.2 else none

/-- What is done to a store, with the calls of observers, the first first, and the store that it
leads to. No listing has two objects with the same key. -/
inductive Run (s₀ : Store α) : List (String × Note α) → Store α → Prop
  | start : Run s₀ [] s₀
  | next {calls : List (String × Note α)} {s : Store α} {w : Write α} {notes : List (Note α)} :
      Run s₀ calls s → w.IsDistinct → Told s w notes →
      Run s₀ (calls ++ s.deliveries notes) (s.write w).1

variable {s : Store α} {w : Write α} {a : α} {notes : List (Note α)}
  {calls : List (String × Note α)} {observers : List String} {o : String}

/-- What a write tells is one of the things that observers can be told of it. -/
theorem told_write (s : Store α) (w : Write α) : Told s w (s.write w).2 := by
  cases w with
  | upsert a => exact .upsert a
  | remove a => exact .remove a
  | replace listing => exact .replace listing (.refl _)

/-- A write does not change who observes the store. -/
@[simp] theorem write_observers (s : Store α) (w : Write α) :
    (s.write w).1.observers = s.observers := by
  cases w with
  | upsert a =>
    simp only [write, upsert]
    split
    · split <;> rfl
    · rfl
  | remove a =>
    simp only [write, remove]
    split <;> rfl
  | replace listing => rfl

omit [Resource α] in
/-- What is heard of calls one after the other is heard one after the other. -/
@[simp] theorem heard_append (calls calls' : List (String × Note α)) :
    heard o (calls ++ calls') = heard o calls ++ heard o calls' :=
  List.filterMap_append

omit [Resource α] in
/-- One who has subscribed once is told of each change once, and in the order of the changes. -/
theorem heard_deliveries (ho : o ∈ s.observers) (hnodup : s.observers.Nodup)
    (notes : List (Note α)) : heard o (s.deliveries notes) = notes := by
  have hone : ∀ n : Note α, heard o (s.observers.map fun x => (x, n)) = [n] := by
    intro n
    obtain ⟨before, after, hsplit⟩ := List.append_of_mem ho
    rw [hsplit] at hnodup ⊢
    obtain ⟨-, hafter, hbefore⟩ := List.nodup_append.1 hnodup
    have hb : ∀ x ∈ before, x ≠ o := fun x hx e => hbefore x hx o (.head _) e
    have ha : ∀ x ∈ after, x ≠ o := fun x hx e => (List.nodup_cons.1 hafter).1 (e ▸ hx)
    have hnone : ∀ xs : List String, (∀ x ∈ xs, x ≠ o) → heard o (xs.map fun x => (x, n)) = [] := by
      intro xs hxs
      refine List.filterMap_eq_nil_iff.2 fun c hc => ?_
      obtain ⟨x, hx, rfl⟩ := List.mem_map.1 hc
      exact if_neg (hxs x hx)
    rw [List.map_append, List.map_cons, heard_append, hnone before hb, List.nil_append, heard,
      List.filterMap_cons, if_pos rfl]
    exact congrArg _ (hnone after ha)
  unfold deliveries
  induction notes with
  | nil => rfl
  | cons n notes ih => rw [List.flatMap_cons, heard_append, hone, ih, List.singleton_append]

/-- The observers of a store are the same all the time. -/
theorem Run.observers_eq {s₀ : Store α} (h : Run s₀ calls s) : s.observers = s₀.observers := by
  induction h with
  | start => rfl
  | next _ _ _ ih => rw [write_observers, ih]

/-- Each object is filed under its key all the time. -/
theorem Run.filed {s₀ : Store α} (h₀ : Filed s₀.items) (h : Run s₀ calls s) : Filed s.items := by
  induction h with
  | start => exact h₀
  | next _ hw _ ih => exact ih.write hw

/-- In a run no observer hears anything that another does not hear as well. -/
theorem Run.heard_eq {s₀ : Store α} {o' : String} (ho : o ∈ s₀.observers) (ho' : o' ∈ s₀.observers)
    (hnodup : s₀.observers.Nodup) (h : Run s₀ calls s) : heard o calls = heard o' calls := by
  induction h with
  | start => rfl
  | next h _ _ ih =>
    have hn := h.observers_eq ▸ hnodup
    rw [heard_append, heard_append, ih, heard_deliveries (h.observers_eq ▸ ho) hn,
      heard_deliveries (h.observers_eq ▸ ho') hn]

/-! ## What is told of a write -/

variable [DecidableEq α]

/-- A listed object that is taken over is told of, and one that is left aside is not. -/
theorem Relisting.Sound.replays_take {objects : Key → Option α} {rest : List α} {r : Relisting α}
    (h : r.Sound (a :: rest)) (hr : Note.Replays objects r.content r.notes) :
    Note.Replays objects (r.take a).content (r.take a).notes := by
  have hthere : r.content (keyOf a) = r.before.get? (keyOf a) := by
    rw [content, h.fresh a (.head _), Option.none_or]
  unfold Relisting.take
  split
  · next old hold =>
    rw [hold] at hthere
    split
    · rw [← List.append_nil r.notes]
      refine hr.append (Note.replays_nil fun k => ?_)
      rw [content_file]
      split
      · next hk => rw [hk, hthere]
      · rfl
    · exact hr.append (Note.replays_updated hthere (content_file r a _))
  · next hnone =>
    have hcontent := content_file (a := a) r a (r.notes ++ [.added a])
    rw [erase_of_get?_none hnone] at hcontent
    exact hr.append (Note.replays_added (hthere.trans hnone) hcontent)

/-- While a listing is taken into account, what was told so far fits what is there, or was and is
still to be listed. -/
theorem Relisting.Sound.replays_foldl_take {objects : Key → Option α} {listing : List α}
    {r : Relisting α} (h : r.Sound listing) (hnodup : (listing.map keyOf).Nodup)
    (hr : Note.Replays objects r.content r.notes) :
    Note.Replays objects (listing.foldl Relisting.take r).content
      (listing.foldl Relisting.take r).notes := by
  induction listing generalizing r with
  | nil => exact hr
  | cons a listing ih =>
    obtain ⟨hnotin, hnodup⟩ := List.nodup_cons.1 hnodup
    exact ih (h.take hnotin) hnodup (h.replays_take hr)

/-- What is told of a listing, before what is gone. -/
theorem replays_relist (h : Filed s.items) {listing : List α}
    (hnodup : (listing.map keyOf).Nodup) :
    Note.Replays s.getByKey? (s.relist listing).content (s.relist listing).notes :=
  Relisting.Sound.replays_foldl_take ⟨h, nofun, nofun, fun _ _ => rfl⟩ hnodup
    (Note.replays_nil fun _ => rfl)

/-- What is told of an object that is written fits. -/
theorem replays_upsert (s : Store α) (a : α) :
    Note.Replays s.getByKey? (s.upsert a).1.getByKey? (s.upsert a).2 := by
  unfold Store.upsert
  split
  · next old hold =>
    split
    · exact Note.replays_nil fun _ => rfl
    · exact Note.replays_updated hold fun k => Table.get?_insert ..
  · next hnone => exact Note.replays_added hnone fun k => Table.get?_insert ..

/-- What is told of an object that is removed fits. -/
theorem replays_remove (s : Store α) (a : α) :
    Note.Replays s.getByKey? (s.remove a).1.getByKey? (s.remove a).2 := by
  unfold Store.remove
  split
  · next old hold =>
    refine Note.replays_deleted ?_ fun k => Table.get?_erase ..
    exact Option.ne_none_iff_exists'.2 ⟨old, hold⟩
  · exact Note.replays_nil fun _ => rfl

/-- What is told of a write takes a copy of the content before it to one of the content after it. -/
theorem Told.replays (h : Told s w notes) (hs : Filed s.items) (hw : w.IsDistinct) :
    Note.Replays s.getByKey? (s.write w).1.getByKey? notes := by
  cases h with
  | upsert a => exact replays_upsert s a
  | remove a => exact replays_remove s a
  | @replace listing gone hperm =>
    have hr := hs.relist hw
    have hkeys : (gone.map keyOf).Perm (s.relist listing).before.keys :=
      (hperm.map keyOf).trans (Relisting.gone_keys hr.before)
    have hmem : ∀ k, k ∈ gone.map keyOf ↔ (s.relist listing).before.get? k ≠ none := by
      intro k
      rw [hkeys.mem_iff, Table.mem_keys_iff, Option.isSome_iff_ne_none]
    refine (replays_relist hs hw).append (Note.replays_deleted_all ?_ (fun a ha => ?_) fun k => ?_)
    · exact hkeys.nodup_iff.2 (s.relist listing).before.nodup
    · exact Relisting.content_ne_none ((hmem (keyOf a)).1 (List.mem_map_of_mem ha))
    · refine (hr.after_eq k).trans ?_
      by_cases hk : (s.relist listing).before.get? k = none
      · rw [if_pos hk, if_neg fun hin => (hmem k).1 hin hk]
      · rw [if_neg hk, if_pos ((hmem k).2 hk)]

/-! ## Runs -/

/-- What an observer has heard takes a copy of the first content to one of the last. -/
theorem Run.replays {s₀ : Store α} (h₀ : Filed s₀.items) (ho : o ∈ s₀.observers)
    (hnodup : s₀.observers.Nodup) (h : Run s₀ calls s) :
    Note.Replays s₀.getByKey? s.getByKey? (heard o calls) := by
  induction h with
  | start => exact Note.replays_nil fun _ => rfl
  | next h hw ht ih =>
    rw [heard_append, heard_deliveries (h.observers_eq ▸ ho) (h.observers_eq ▸ hnodup)]
    exact ih.append (ht.replays (h.filed h₀) hw)

/-- Whatever is done to a store that begins without objects: its observers hear the same changes in
the same order, and a copy that is changed as they hear takes each change and is the content of the
store in the end. Nobody is told of an object that is older than the one that is filed, nor of the
removal of one that is not there. -/
theorem log_replays (h : Run ({ observers } : Store α) calls s) (hnodup : observers.Nodup) :
    (∀ o ∈ observers, ∀ o' ∈ observers, heard o calls = heard o' calls) ∧
    (∀ o ∈ observers, ∃ t, Note.replay? .empty (heard o calls) = some t ∧
      ∀ k, t.get? k = s.getByKey? k) ∧
    (∀ (a old : α) (notes : List (Note α)), s.getByKey? (keyOf a) = some old →
      isOlder a old = true → Told s (.upsert a) notes → s.deliveries notes = []) ∧
    ∀ (a : α) (notes : List (Note α)), s.getByKey? (keyOf a) = none →
      Told s (.remove a) notes → s.deliveries notes = [] := by
  refine ⟨fun o ho o' ho' => h.heard_eq ho ho' hnodup, fun o ho => ?_,
    fun a old notes hold holder ht => ?_, fun a notes hnone ht => ?_⟩
  · have hcopy : Note.Replays (fun _ => none) s.getByKey? (heard o calls) :=
      h.replays nofun ho hnodup
    exact hcopy .empty fun _ => rfl
  · cases ht
    unfold getByKey? at hold
    simp [upsert, hold, holder, deliveries]
  · cases ht
    unfold getByKey? at hnone
    simp [remove, hnone, deliveries]

end Store

end

namespace Store

/-- Two warm images are listed, one of them is updated, an older version of it is ignored, and a
listing has an older version of it too and lacks the other. -/
theorem log_replays_relisted :
    let wi : String → String → WarmImage := fun name version =>
      { metadata := { name := some name, ns := some "ns", resourceVersion := some version }
        image := "" }
    let s₀ : Store WarmImage := { observers := ["x", "y"] }
    let s₁ := (s₀.replace [wi "a" "1", wi "b" "1"]).1
    let s₂ := (s₁.upsert (wi "a" "3")).1
    let s₃ := (s₂.upsert (wi "a" "2")).1
    let s := (s₃.replace [wi "a" "2"]).1
    ∃ calls, Run s₀ calls s ∧
      heard "y" calls = [.added (wi "a" "1"), .added (wi "b" "1"),
        .updated (wi "a" "1") (wi "a" "3"), .deleted (wi "b" "1")] ∧
      s.getByKey? "ns/a" = some (wi "a" "3") ∧
      ∃ t, Note.replay? .empty (heard "y" calls) = some t ∧ ∀ k, t.get? k = s.getByKey? k := by
  intro wi s₀ s₁ s₂ s₃ s
  have hlisted : (Write.replace [wi "a" "1", wi "b" "1"]).IsDistinct := by
    show (List.map keyOf _).Nodup
    decide +kernel
  have h₁ : Run s₀ _ s₁ := .next .start hlisted (told_write s₀ _)
  have h₂ : Run s₀ _ s₂ := h₁.next (w := .upsert (wi "a" "3")) trivial (told_write s₁ _)
  have h₃ : Run s₀ _ s₃ := h₂.next (w := .upsert (wi "a" "2")) trivial (told_write s₂ _)
  have h : Run s₀ _ s :=
    h₃.next (w := .replace [wi "a" "2"]) (List.pairwise_singleton _ _) (told_write s₃ _)
  exact ⟨_, h, by decide +kernel, by decide +kernel,
    (log_replays h (by decide)).2.1 "y" (by decide)⟩

end Store

end Prewarm
