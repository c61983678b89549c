import Prewarm.Controller
import Prewarm.Proofs.Store.Log
import Prewarm.Proofs.WorkQueue.Pending

/-!
# What a listing tells of each key

A listing replaces the content of a store, and tells of each key that was there or is listed by what
was there and what is listed: `told` is one change, and none for an object that is listed in an
older version than the one that is there, which stays. The changes are told of one key after the
other, so that what is told of one key is found among all of them (`Told.about_eq`), and an observer
that puts the keys of additions and updates on a queue does so with every object that stays, unless
it was listed in an older version (`relisted_unless_older`, `kept_object_untold`).
-/

namespace Prewarm

section
variable {α : Type} [Resource α]

/-- The changes that concern the object with a key. -/
def Note.about (k : Key) (notes : List (Note α)) : List (Note α) :=
  notes.filter fun n => decide (keyOf n.object = k)

@[simp] theorem Note.about_append (k : Key) (notes notes' : List (Note α)) :
    about k (notes ++ notes') = about k notes ++ about k notes' :=
  List.filter_append ..

namespace Store

/-- What a listing tells of a key, by the object that was there and the one that is listed. -/
def told : Option α → Option α → List (Note α)
  | none, none => []
  | none, some a => [.added a]
  | some old, some a => if isOlder a old then [] else [.updated old a]
  | some old, none => [.deleted old]

variable {s : Store α} {listing : List α} {a : α} {k : Key} {notes : List (Note α)}

/-- What is told of a listed object concerns its key. -/
theorem about_told_some (old? : Option α) (a : α) (k : Key) :
    Note.about k (told old? (some a)) = if keyOf a = k then told old? (some a) else [] := by
  cases old? with
  | none => by_cases hk : keyOf a = k <;> simp [told, Note.about, Note.object, hk]
  | some old =>
    by_cases holder : isOlder a old = true
    · simp [told, Note.about, holder]
    · by_cases hk : keyOf a = k <;> simp [told, Note.about, Note.object, holder, hk]

/-! ## Listed objects -/

namespace Relisting

variable {r : Relisting α}

theorem take_notes (r : Relisting α) (a : α) :
    (r.take a).notes = r.notes ++ told (r.before.get? (keyOf a)) (some a) := by
  unfold take
  split
  · next old hold =>
    by_cases holder : isOlder a old = true <;> simp [told, hold, holder]
  · next hnone => simp [told, hnone]

theorem get?_before_foldl_take (listing : List α) (r : Relisting α) (k : Key) :
    (listing.foldl take r).before.get? k =
      if (listed? listing k).isSome then none else r.before.get? k := by
  induction listing generalizing r with
  | nil => simp [listed?]
  | cons a listing ih =>
    rw [List.foldl_cons, ih, get?_before_take]
    by_cases hk : k = keyOf a <;> simp [listed?, hk, Ne.symm]

/-- Of the key of a listed object nothing is told but what is told of the object. -/
theorem about_foldl_take (hnodup : (listing.map keyOf).Nodup) (r : Relisting α) (k : Key) :
    Note.about k (listing.foldl take r).notes = Note.about k r.notes ++
      (listed? listing k).elim [] fun a => told (r.before.get? k) (some a) := by
  induction listing generalizing r with
  | nil => simp [listed?]
  | cons a listing ih =>
    obtain ⟨hnotin, hnodup⟩ := List.nodup_cons.1 hnodup
    rw [List.foldl_cons, ih hnodup, take_notes, Note.about_append, about_told_some,
      get?_before_take]
    by_cases hk : k = keyOf a
    · have hnone := listed?_eq_none hnotin
      unfold listed? at hnone ⊢
      simp [hk, hnone]
    · simp [listed?, hk, Ne.symm hk]

/-! ## Objects that are gone -/

omit [Resource α] in
theorem gone_perm (r : Relisting α) : r.gone.Perm r.before.values :=
  (List.mergeSort_perm _ _).map Prod.snd

/-- Of objects with distinct keys one has the key of one of them. -/
theorem filter_keyOf_eq {as : List α} (hnodup : (as.map keyOf).Nodup) (ha : a ∈ as) :
    as.filter (fun b => decide (keyOf b = keyOf a)) = [a] := by
  induction as with
  | nil => cases ha
  | cons b as ih =>
    obtain ⟨hnotin, hnodup⟩ := List.nodup_cons.1 hnodup
    have hother : ∀ c ∈ as, keyOf c ≠ keyOf b := fun c hc e =>
      hnotin (List.mem_map.2 ⟨c, hc, e⟩)
    rcases List.mem_cons.1 ha with rfl | ha
    · have hnone : as.filter (fun c => decide (keyOf c = keyOf a)) = [] := by simpa using hother
      simp [hnone]
    · simp [(hother a ha).symm, ih hnodup ha]

/-- Of a key that is still awaited it is told that its object is gone. -/
theorem about_gone (h : Filed r.before) {gone : List α} (hperm : gone.Perm r.gone) (k : Key) :
    Note.about k (gone.map .deleted) = told (r.before.get? k) none := by
  have hfilter : Note.about k (gone.map .deleted) =
      (gone.filter fun a => decide (keyOf a = k)).map .deleted := by
    unfold Note.about
    rw [List.filter_map]
    rfl
  have hmem : ∀ a, a ∈ gone ↔ ∃ k, r.before.get? k = some a := fun a => by
    rw [(hperm.trans r.gone_perm).mem_iff, Table.mem_values_iff]
  rw [hfilter]
  cases hk : r.before.get? k with
  | none =>
    have hnone : gone.filter (fun a => decide (keyOf a = k)) = [] := by
      refine List.filter_eq_nil_iff.2 fun a ha hak => ?_
      obtain ⟨k', hk'⟩ := (hmem a).1 ha
      obtain rfl : k' = k := (h k' a hk').symm.trans (of_decide_eq_true hak)
      cases hk.symm.trans hk'
    rw [hnone]
    rfl
  | some old =>
    have hnodup : (gone.map keyOf).Nodup :=
      ((hperm.map keyOf).trans (gone_keys h)).nodup_iff.2 r.before.nodup
    obtain rfl : keyOf old = k := h k old hk
    rw [filter_keyOf_eq hnodup ((hmem old).2 ⟨_, hk⟩)]
    rfl

end Relisting

/-- What is told of a key by a listing, whatever the order in which the objects that it lacks are
told of. -/
theorem Told.about_eq (ht : Told s (.replace listing) notes) (h : Filed s.items)
    (hnodup : (listing.map keyOf).Nodup) (k : Key) :
    Note.about k notes = told (s.getByKey? k) (listed? listing k) := by
  cases ht with
  | replace _ hperm =>
    have hbefore := (h.relist hnodup).before
    have habout := Relisting.about_foldl_take hnodup ⟨s.items, .empty, []⟩ k
    have hgone := Relisting.get?_before_foldl_take listing ⟨s.items, .empty, []⟩ k
    rw [Note.about_append, Relisting.about_gone hbefore hperm]
    unfold relist
    rw [habout, hgone]
    cases listed? listing k with
    | none => simp [Note.about, getByKey?]
    | some a => simp [Note.about, getByKey?, told]

/-! ## Observers -/

omit [Resource α] in
/-- An observer is called in the order of the changes, so that the calls about a key are those of
what is told of it. -/
theorem deliveries_filter (s : Store α) (p : Note α → Bool) (notes : List (Note α)) :
    (s.deliveries notes).filter (fun c => p c.2) = s.deliveries (notes.filter p) := by
  induction notes with
  | nil => rfl
  | cons n notes ih =>
    have hone : (s.observers.map fun o => (o, n)).filter (fun c => p c.2) =
        if p n then s.observers.map fun o => (o, n) else [] := by
      by_cases hn : p n = true <;> simp [hn, List.filter_eq_self, List.filter_eq_nil_iff]
    unfold deliveries at ih ⊢
    rw [List.flatMap_cons, List.filter_append, ih, hone]
    by_cases hn : p n = true <;> simp [hn]

/-- How often a key is put on a queue is a matter of what is told of it. -/
theorem count_keys (k : Key) (notes : List (Note α)) : (EnqueueRule.itself.keys notes).count k =
    (EnqueueRule.itself.keys (Note.about k notes)).count k := by
  induction notes with
  | nil => rfl
  | cons n notes ih =>
    have hskip : ∀ x, EnqueueRule.itself.key? n = some x → x = keyOf n.object := by
      cases n <;> simp [EnqueueRule.key?, Note.object]
    unfold EnqueueRule.keys Note.about at ih ⊢
    by_cases hk : keyOf n.object = k
    · cases hkey : EnqueueRule.itself.key? n <;> simp [hk, hkey, ih, List.count_cons]
    · cases hkey : EnqueueRule.itself.key? n with
      | none => simp [hk, hkey, ih]
      | some x =>
        obtain rfl := hskip x hkey
        simp [hk, hkey, ih]

/-- A listing tells each observer once of each key that was there or is listed, by what was there
and what is listed, but not of an object that is listed in an older version than the one that stays.
So where additions and updates put keys on a queue, the key of every listed object that is taken
over is put there once, and is pending then; the key of one that stays because it is newer is
not. -/
theorem relisted_unless_older {observers : List String} {calls : List (String × Note α)}
    (h : Run ({ observers } : Store α) calls s) (hnodup : (listing.map keyOf).Nodup)
    (ht : Told s (.replace listing) notes) :
    (∀ k, (s.deliveries notes).filter (fun c => decide (keyOf c.2.object = k)) =
      s.deliveries (told (s.getByKey? k) (listed? listing k))) ∧
    (∀ k a, listed? listing k = some a →
      (∀ old, s.getByKey? k = some old → isOlder a old = false) →
      (EnqueueRule.itself.keys notes).count k = 1 ∧
      ∀ {L : Type} [Limiter L] (l : L) (q : WorkQueue L) (now : Instant),
        WorkQueue.Takes l q → Limiter.NeverFails l → Limiter.ShownUntil now l →
        (q.addAllRateLimited now (EnqueueRule.itself.keys notes)).2.Pending k) ∧
    ∀ k old a, s.getByKey? k = some old → listed? listing k = some a → isOlder a old = true →
      (s.write (.replace listing)).1.getByKey? k = some old ∧
      k ∉ EnqueueRule.itself.keys notes := by
  have hempty : Filed ({ observers } : Store α).items := nofun
  have hfiled : Filed s.items := h.filed hempty
  have habout := ht.about_eq hfiled hnodup
  refine ⟨fun k => ?_, fun k a ha hnew => ?_, fun k old a hold ha holder => ⟨?_, ?_⟩⟩
  · rw [← habout k]
    exact deliveries_filter s (fun n => decide (keyOf n.object = k)) notes
  · have hkey : keyOf a = k := by simpa using List.find?_some ha
    have hcount : (EnqueueRule.itself.keys notes).count k = 1 := by
      rw [count_keys, habout, ha]
      cases hold : s.getByKey? k with
      | none => simp [told, EnqueueRule.keys, EnqueueRule.key?, hkey]
      | some old => simp [told, EnqueueRule.keys, EnqueueRule.key?, hkey, hnew old hold]
    refine ⟨hcount, fun {L} _ l q now hq hl hshown => hq.pending_addAllRateLimited hl hshown ?_⟩
    exact List.count_pos_iff.1 (by omega)
  · exact (getByKey?_replace_eq hnodup s k).trans (by simp [ha, hold, newer, holder])
  · rw [← List.count_eq_zero, count_keys, habout, hold, ha]
    simp [told, holder, EnqueueRule.keys]

end Store

end

namespace Store

/-- A warm image that stays is updated by a listing, one is added and one is gone. -/
theorem relisted_unless_older_mixed :
    let wi : String → String → WarmImage := fun name version =>
      { metadata := { name := some name, ns := some "ns", resourceVersion := some version }
        image := "" }
    let s₀ : Store WarmImage := { observers := ["x"] }
    let s := (s₀.replace [wi "a" "1", wi "b" "1"]).1
    let listing := [wi "a" "2", wi "c" "1"]
    let q : WorkQueue RateLimiter := .withLimiter "q" (.exponential (.ofMillis 5) (.ofSeconds 1000))
    (∃ calls, Run s₀ calls s) ∧
      (s.deliveries (s.replace listing).2).filter (fun c => decide (keyOf c.2.object = "ns/b")) =
        [("x", .deleted (wi "b" "1"))] ∧
      (EnqueueRule.itself.keys (s.replace listing).2).count "ns/a" = 1 ∧
      (q.addAllRateLimited ⟨0⟩
        (EnqueueRule.itself.keys (s.replace listing).2)).2.Pending "ns/a" := by
  intro wi s₀ s listing q
  have hdistinct : (Write.replace [wi "a" "1", wi "b" "1"]).IsDistinct := by decide +kernel
  have h : Run s₀ _ s := .next .start hdistinct (told_write s₀ _)
  have hlisting : (listing.map keyOf).Nodup := by decide +kernel
  obtain ⟨hcalls, hkeys, -⟩ := relisted_unless_older h hlisting (told_write s (.replace listing))
  obtain ⟨hcount, hpending⟩ := hkeys "ns/a" (wi "a" "2") (by decide +kernel) (by
    rintro old ⟨⟩
    decide)
  refine ⟨⟨_, h⟩, (hcalls "ns/b").trans ?_, hcount, ?_⟩
  · decide +kernel
  · exact hpending (.exponential (.ofMillis 5) (.ofSeconds 1000)) q ⟨0⟩
      (WorkQueue.takes_withLimiter ..) (RateLimiter.neverFails_exponential _ _)
      (RateLimiter.shownUntil_exponential (by decide))

/-- An object that is listed in an older version than the one that is there stays, and nobody is
told of it, so its key is not put on a queue. -/
theorem kept_object_untold :
    let wi : String → WarmImage := fun version =>
      { metadata := { name := some "a", ns := some "ns", resourceVersion := some version }
        image := "" }
    let s : Store WarmImage := (({ observers := ["x"] } : Store WarmImage).upsert (wi "5")).1
    let (s', notes) := s.replace [wi "3"]
    s.getByKey? "ns/a" = some (wi "5") ∧ s'.getByKey? "ns/a" = some (wi "5") ∧
      s.deliveries notes = [] ∧ EnqueueRule.itself.keys notes = [] := by
  decide +kernel

end Store

end Prewarm
