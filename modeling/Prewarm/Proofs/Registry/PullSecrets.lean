import Prewarm.Json.Writer
import Prewarm.Proofs.Reconcile.Exchanges
import Prewarm.Proofs.Text.Octets

/-!
# Which login stands

The secrets with logins are read one after another, and what was found in them is filed in that
order; the entries of one secret are filed in the order of their registries. Every entry has its
place in this, and the places ascend (`placed_ascending`), so it can be said without the filing
which entry stands: of the usable ones for a registry, however they spell it, the last
(`LastUsable`). Registries are in order as texts are, which is the order of their octets as well.
-/

namespace Prewarm

/-- The octets under a name in a secret. -/
def Secret.at? (s : Secret) (name : String) : Option Bytes := s.data.bind (·.get? name)

namespace PullSecret

/-- The fields about registries that a secret has, in the document that counts. The second layout
counts if there is no document of the first. -/
inductive Fields (s : Secret) : List (String × Json) → Prop
  | wrapped {doc : Bytes} {j auths : Json} : s.at? ".dockerconfigjson" = some doc →
      (Json.Document.ofBytes doc).read wrappedShape = .ok j → j.field? "auths" = some auths →
      Fields s auths.fields
  | plain {doc : Bytes} {j : Json} : s.at? ".dockerconfigjson" = none →
      s.at? ".dockercfg" = some doc → (Json.Document.ofBytes doc).read entriesShape = .ok j →
      Fields s j.fields

/-- What a secret has about a registry. -/
inductive Holds (s : Secret) (registry : String) : LoginEntry → Prop
  | intro {fs : List (String × Json)} {j : Json} : Fields s fs → Json.last? registry fs = some j →
      Holds s registry (.ofJson j)

/-- A secret without a document, or with a malformed one where it counts. -/
inductive Barren (s : Secret) : Prop
  | empty : s.at? ".dockerconfigjson" = none → s.at? ".dockercfg" = none → Barren s
  | wrapped {doc : Bytes} {f : Json.Fault} : s.at? ".dockerconfigjson" = some doc →
      (Json.Document.ofBytes doc).read wrappedShape = .error f → Barren s
  | plain {doc : Bytes} {f : Json.Fault} : s.at? ".dockerconfigjson" = none →
      s.at? ".dockercfg" = some doc → (Json.Document.ofBytes doc).read entriesShape = .error f →
      Barren s

section
variable {s : Secret} {registry : String} {e : LoginEntry} {l : Login} {j : Json}

/-- A secret without data has no octets under any name. -/
theorem at?_eq (s : Secret) (name : String) : (s.data.getD .empty).get? name = s.at? name := by
  unfold Secret.at?
  cases s.data <;> rfl

/-- Of equal fields of a document the last one counts. -/
theorem get?_entriesOf (j : Json) (registry : String) :
    (entriesOf j).get? registry = (Json.last? registry j.fields).map .ofJson := by
  unfold entriesOf Json.last?
  rw [Table.get?_ofList, ← List.map_reverse, List.find?_map, Option.map_map, Option.map_map]
  rfl

/-- A secret has for each registry the last field about it in the document that counts. -/
theorem get?_entries {fs : List (String × Json)} (h : Fields s fs) (registry : String) :
    (entries s).get? registry = (Json.last? registry fs).map .ofJson := by
  cases h with
  | @wrapped doc j auths hdoc hj hauths =>
    simp only [entries, at?_eq, hdoc, hj, hauths]
    exact get?_entriesOf auths registry
  | @plain doc j hnone hdoc hj =>
    simp only [entries, at?_eq, hnone, hdoc, hj]
    exact get?_entriesOf j registry

/-- A barren secret has nothing about any registry. -/
theorem Barren.entries_eq (h : Barren s) : entries s = .empty := by
  cases h with
  | empty hwrapped hplain => simp only [entries, at?_eq, hwrapped, hplain]
  | wrapped hdoc hf => simp only [entries, at?_eq, hdoc, hf]
  | plain hnone hdoc hf => simp only [entries, at?_eq, hnone, hdoc, hf]

/-- A secret has a document that counts, or nothing about any registry. -/
theorem fields_or_empty (s : Secret) : (∃ fs, Fields s fs) ∨ entries s = .empty := by
  cases hwrapped : s.at? ".dockerconfigjson" with
  | some doc =>
    cases hj : (Json.Document.ofBytes doc).read wrappedShape with
    | error f => exact .inr (Barren.wrapped hwrapped hj).entries_eq
    | ok j =>
      cases hauths : j.field? "auths" with
      | none =>
        refine .inr ?_
        simp only [entries, at?_eq, hwrapped, hj, hauths, Option.elim_none]
      | some auths => exact .inl ⟨_, .wrapped hwrapped hj hauths⟩
  | none =>
    cases hplain : s.at? ".dockercfg" with
    | none => exact .inr (Barren.empty hwrapped hplain).entries_eq
    | some doc =>
      cases hj : (Json.Document.ofBytes doc).read entriesShape with
      | error f => exact .inr (Barren.plain hwrapped hplain hj).entries_eq
      | ok j => exact .inl ⟨_, .plain hwrapped hplain hj⟩

/-- The entries of a secret are what it has about registries. -/
theorem get?_entries_iff : (entries s).get? registry = some e ↔ Holds s registry e := by
  constructor
  · intro h
    rcases fields_or_empty s with ⟨fs, hfs⟩ | hempty
    · rw [get?_entries hfs, Option.map_eq_some_iff] at h
      obtain ⟨j, hj, rfl⟩ := h
      exact .intro hfs hj
    · rw [hempty] at h
      cases h
  · rintro ⟨hfs, hj⟩
    rw [get?_entries hfs, hj, Option.map_some]

/-- The logins of a secret are what its usable entries come to. -/
theorem mem_logins_iff :
    (registry, l) ∈ logins s ↔ ∃ e, Holds s registry e ∧ e.login? = some l := by
  simp only [logins, Table.sorted, List.mem_filterMap, List.mem_mergeSort, Prod.exists,
    ← Table.get?_eq_some_iff, get?_entries_iff, Option.map_eq_some_iff]
  constructor
  · rintro ⟨_, e, he, _, hl, h⟩
    cases h
    exact ⟨e, he, hl⟩
  · rintro ⟨e, he, hl⟩
    exact ⟨registry, e, he, l, hl, rfl⟩

/-- The logins of a secret are in the order of their registries, each of which has one at most. -/
theorem logins_ascending (s : Secret) : (logins s).Pairwise (fun a b => a.1 < b.1) := by
  have hle : ((entries s).sorted (fun a b => decide (a ≤ b))).Pairwise (fun a b => a.1 ≤ b.1) := by
    refine (List.pairwise_mergeSort ?_ ?_ _).imp fun {a b} h => of_decide_eq_true h
    · intro a b c hab hbc
      exact decide_eq_true (Std.le_trans (of_decide_eq_true hab) (of_decide_eq_true hbc))
    · intro a b
      rw [Bool.or_eq_true, decide_eq_true_eq, decide_eq_true_eq]
      exact Std.le_total
  have hne : ((entries s).sorted (fun a b => decide (a ≤ b))).Pairwise (fun a b => a.1 ≠ b.1) :=
    List.pairwise_map.1 (((List.mergeSort_perm _ _).map Prod.fst).nodup_iff.2 (entries s).nodup)
  refine (hle.and hne).filterMap _ fun x y hxy a ha b hb => ?_
  obtain ⟨_, -, rfl⟩ := Option.map_eq_some_iff.1 ha
  obtain ⟨_, -, rfl⟩ := Option.map_eq_some_iff.1 hb
  exact Std.lt_of_le_of_ne hxy.1 hxy.2

/-- A barren secret adds no login. -/
theorem Barren.addSecret_eq (h : Barren s) (ls : Logins) : ls.addSecret s = ls := by
  simp only [Logins.addSecret, logins, h.entries_eq, Table.sorted, Table.empty, List.mergeSort_nil,
    List.filterMap_nil, List.foldl_nil]

end

end PullSecret

/-! ## Places -/

namespace Logins

/-- The logins in secrets that were looked for, from the first to the last. One that was not found
adds none. -/
def ofSecrets (found : List (Option Secret)) : Logins :=
  found.foldl (fun ls s => s.elim ls ls.addSecret) .anonymous

/-- Whether the secret in a place has a usable login for a registry. -/
inductive Usable (found : List (Option Secret)) (i : Nat) (registry : String) (l : Login) : Prop
  | intro {s : Secret} {e : LoginEntry} : found[i]? = some (some s) →
      PullSecret.Holds s registry e → e.login? = some l → Usable found i registry l

/-- Whether a login is the last usable one for the registry with a host: it is in a later secret
than the others, or in the same one with a registry that has greater octets. -/
inductive LastUsable (found : List (Option Secret)) (host : String) (l : Login) : Prop
  | intro {i : Nat} {registry : String} : Usable found i registry l →
      registryKey registry = registryKey host →
      (∀ j other l', Usable found j other l' → registryKey other = registryKey host →
        j < i ∨ j = i ∧ Bytes.ofString other ≤ Bytes.ofString registry) →
      LastUsable found host l

/-- A usable login with the place of its secret and its registry. -/
structure Placed where
  place : Nat
  registry : String
  login : Login

/-- Whether one login is filed before another. -/
def Placed.Before (a b : Placed) : Prop :=
  a.place < b.place ∨ a.place = b.place ∧ a.registry < b.registry

/-- The usable logins in secrets in the order in which they are filed. -/
def placed (found : List (Option Secret)) : List Placed :=
  found.zipIdx.flatMap fun (s, i) =>
    (s.elim [] PullSecret.logins).map fun (registry, l) => ⟨i, registry, l⟩

section
variable {found : List (Option Secret)} {i : Nat} {host registry : String} {l : Login}

/-- The logins that are filed are the usable ones of all secrets, each with its place. -/
theorem mem_placed_iff : ⟨i, registry, l⟩ ∈ placed found ↔ Usable found i registry l := by
  unfold placed
  rw [List.mem_flatMap]
  constructor
  · rintro ⟨⟨s, j⟩, hs, hmem⟩
    obtain ⟨⟨_, _⟩, hlogin, hplaced⟩ := List.mem_map.1 hmem
    cases hplaced
    cases s with
    | none => cases hlogin
    | some s =>
      obtain ⟨e, he, hl⟩ := PullSecret.mem_logins_iff.1 hlogin
      exact .intro (List.mem_zipIdx_iff_getElem?.1 hs) he hl
  · rintro ⟨hs, he, hl⟩
    exact ⟨(_, i), List.mem_zipIdx_iff_getElem?.2 hs,
      List.mem_map.2 ⟨(registry, l), PullSecret.mem_logins_iff.2 ⟨_, he, hl⟩, rfl⟩⟩

/-- Logins are filed in the order of their places. -/
theorem placed_ascending (found : List (Option Secret)) :
    (placed found).Pairwise Placed.Before := by
  unfold placed
  rw [List.pairwise_flatMap]
  constructor
  · rintro ⟨s, i⟩ -
    rw [List.pairwise_map]
    cases s with
    | none => exact .nil
    | some s => exact (PullSecret.logins_ascending s).imp fun h => .inr ⟨rfl, h⟩
  · have hlt : found.zipIdx.Pairwise (fun a b => a.2 < b.2) := by
      refine List.pairwise_map.1 ?_
      rw [List.zipIdx_map_snd]
      exact List.pairwise_lt_range' 1
    refine hlt.imp fun {a b} h x hx y hy => .inl ?_
    obtain ⟨_, -, rfl⟩ := List.mem_map.1 hx
    obtain ⟨_, -, rfl⟩ := List.mem_map.1 hy
    exact h

/-- Logins are filed one after the other, by their places. -/
theorem ofSecrets_eq (found : List (Option Secret)) : ofSecrets found =
    (placed found).foldl (fun ls x => ls.insert x.registry x.login) .anonymous := by
  have hone : ∀ (ls : Logins) (s : Option Secret) (i : Nat),
      ((s.elim [] PullSecret.logins).map fun (registry, l) => (⟨i, registry, l⟩ : Placed)).foldl
        (fun ls x => ls.insert x.registry x.login) ls = s.elim ls ls.addSecret := by
    intro ls s i
    rw [List.foldl_map]
    cases s <;> rfl
  unfold ofSecrets placed
  simp only [List.foldl_flatMap, hone]
  conv => lhs; rw [← List.zipIdx_map_fst 0 found, List.foldl_map]

/-- Logins that are filed are filed under the keys of their registries. -/
theorem entries_foldl_insert (xs : List Placed) (ls : Logins) :
    (xs.foldl (fun ls x => ls.insert x.registry x.login) ls).entries =
      (xs.map fun x => (registryKey x.registry, x.login)).foldl (fun t e => t.insert e.1 e.2)
        ls.entries := by
  induction xs generalizing ls with
  | nil => rfl
  | cons x xs ih =>
    have hinsert : (ls.insert x.registry x.login).entries =
        ls.entries.insert (registryKey x.registry) x.login := rfl
    simp only [List.foldl_cons, List.map_cons, ih, hinsert]

/-- A host has the login that was filed last for its registry. -/
theorem get?_ofSecrets (found : List (Option Secret)) (host : String) :
    (ofSecrets found).get? host = ((placed found).reverse.find?
      (fun x => decide (registryKey x.registry = registryKey host))).map Placed.login := by
  have hnone : anonymous.entries.get? (registryKey host) = none := rfl
  unfold get?
  rw [ofSecrets_eq, entries_foldl_insert, Table.get?_foldl_insert_entry, hnone, Option.or_none,
    ← List.map_reverse, List.find?_map, Option.map_map]
  simp only [Function.comp_def]

/-! ## The last one -/

/-- In a list that ascends, the last element that passes a test is the greatest of those. -/
theorem find?_reverse_eq_some_iff {α : Type} {r : α → α → Prop} {p : α → Bool} {xs : List α} {a : α}
    (hr : ∀ a b, r a b → ¬ r b a) (hxs : xs.Pairwise r) :
    xs.reverse.find? p = some a ↔
      a ∈ xs ∧ p a = true ∧ ∀ b ∈ xs, p b = true → b = a ∨ r b a := by
  have hlast : ∀ a, xs.reverse.find? p = some a →
      a ∈ xs ∧ p a = true ∧ ∀ b ∈ xs, p b = true → b = a ∨ r b a := by
    intro a ha
    obtain ⟨hpa, after, before, hsplit, hafter⟩ := List.find?_eq_some_iff_append.1 ha
    have hxs' : xs = before.reverse ++ a :: after.reverse := by
      rw [← List.reverse_reverse xs, hsplit]
      simp
    have hascends := hxs
    rw [hxs', List.pairwise_append] at hascends
    refine ⟨by simp [hxs'], hpa, fun b hb hpb => ?_⟩
    rw [hxs', List.mem_append, List.mem_cons, List.mem_reverse, List.mem_reverse] at hb
    rcases hb with hb | rfl | hb
    · exact .inr (hascends.2.2 b (List.mem_reverse.2 hb) a (.head _))
    · exact .inl rfl
    · have hnot := hafter b hb
      rw [hpb] at hnot
      cases hnot
  -- What is found is a greatest element as well, and there are no two of them.
  refine ⟨hlast a, fun ⟨hmem, hpa, hgreatest⟩ => ?_⟩
  obtain ⟨b, hb⟩ := Option.isSome_iff_exists.1
    (List.find?_isSome.2 ⟨a, List.mem_reverse.2 hmem, hpa⟩)
  obtain ⟨hbmem, hpb, hbgreatest⟩ := hlast b hb
  rcases hgreatest b hbmem hpb with rfl | hba
  · exact hb
  · rcases hbgreatest a hmem hpa with rfl | hab
    · exact hb
    · exact absurd hba (hr a b hab)

/-- Of two logins not each is filed before the other. -/
theorem Placed.Before.asymm {a b : Placed} (h : a.Before b) : ¬ b.Before a := by
  rintro (hba | ⟨hba, hlt⟩) <;> rcases h with hab | ⟨hab, hlt'⟩
  · omega
  · omega
  · omega
  · exact String.lt_asymm hlt hlt'

/-- A place and a registry have one usable login at most. -/
theorem Usable.unique {l' : Login} (h : Usable found i registry l)
    (h' : Usable found i registry l') : l = l' := by
  obtain ⟨hs, he, hl⟩ := h
  obtain ⟨hs', he', hl'⟩ := h'
  obtain rfl := Option.some.inj (Option.some.inj (hs.symm.trans hs'))
  have hsame := (PullSecret.get?_entries_iff.2 he).symm.trans (PullSecret.get?_entries_iff.2 he')
  obtain rfl := Option.some.inj hsame
  exact Option.some.inj (hl.symm.trans hl')

/-- A host has the last usable login for its registry. -/
theorem get?_ofSecrets_eq_some_iff :
    (ofSecrets found).get? host = some l ↔ LastUsable found host l := by
  have hfind := fun x => find?_reverse_eq_some_iff (a := x)
    (p := fun x => decide (registryKey x.registry = registryKey host))
    (fun _ _ => Placed.Before.asymm) (placed_ascending found)
  simp only [get?_ofSecrets, Option.map_eq_some_iff, hfind, decide_eq_true_eq]
  constructor
  · rintro ⟨⟨i, registry, l⟩, ⟨hmem, hkey, hlast⟩, rfl⟩
    refine .intro (mem_placed_iff.1 hmem) hkey fun j other l' hother hotherKey => ?_
    rcases hlast ⟨j, other, l'⟩ (mem_placed_iff.2 hother) hotherKey with h | hplace | ⟨hplace, hlt⟩
    · cases h
      exact .inr ⟨rfl, Bytes.ofString_le_iff.2 (Std.le_refl _)⟩
    · exact .inl hplace
    · exact .inr ⟨hplace, Bytes.ofString_le_iff.2 (Std.le_of_lt hlt)⟩
  · intro h
    cases h with
    | @intro i registry husable hkey hlast =>
    refine ⟨⟨i, registry, l⟩, ⟨mem_placed_iff.2 husable, hkey, fun x hmem hotherKey => ?_⟩, rfl⟩
    obtain ⟨j, other, l'⟩ := x
    have hother := mem_placed_iff.1 hmem
    rcases hlast j other l' hother hotherKey with hplace | ⟨rfl, hle⟩
    · exact .inr (.inl hplace)
    -- Registries with the same octets are the same, and so are their logins.
    · by_cases hsame : other = registry
      · subst hsame
        exact .inl (congrArg _ (hother.unique husable))
      · exact .inr (.inr ⟨rfl, Std.lt_of_le_of_ne (Bytes.ofString_le_iff.1 hle) hsame⟩)

/-- A host has no login if there is no usable one for its registry. -/
theorem get?_ofSecrets_eq_none_iff : (ofSecrets found).get? host = none ↔
    ∀ i registry l, Usable found i registry l → registryKey registry ≠ registryKey host := by
  rw [get?_ofSecrets, Option.map_eq_none_iff, List.find?_eq_none]
  constructor
  · intro h i registry l husable hkey
    exact h _ (List.mem_reverse.2 (mem_placed_iff.2 husable)) (decide_eq_true hkey)
  · intro h x hx hkey
    exact h x.place x.registry x.login (mem_placed_iff.1 (List.mem_reverse.1 hx))
      (of_decide_eq_true hkey)

/-- A secret that was not found or is barren makes no difference. -/
theorem ofSecrets_append_cons {before after : List (Option Secret)} {s : Option Secret}
    (h : ∀ t, s = some t → PullSecret.Barren t) :
    ofSecrets (before ++ s :: after) = ofSecrets (before ++ after) := by
  have hone : ∀ ls : Logins, s.elim ls ls.addSecret = ls := by
    intro ls
    cases s with
    | none => rfl
    | some t => exact (h t rfl).addSecret_eq ls
  simp only [ofSecrets, List.foldl_append, List.foldl_cons, hone]

end

end Logins

/-! ## Reading -/

namespace Reconcile

/-- Secrets of a namespace that are read, with the answers. -/
def reads (ns : String) (names : List String)
    (answers : List (Except ClusterError (Option Secret))) : List Exchange :=
  List.zipWith (fun name answer => ⟨.secret ns name, answer⟩) names answers

section
variable {ns name : String} {names : List String} {ls : Logins} {es : List Exchange}
  {r : Except ClusterError Logins}

/-- Secrets are read one after the other, and the first failure ends it. -/
theorem addLogins_cons : sources.addLogins ns ls (name :: names) =
    .ask (.secret ns name) (fun
      | .error e => .done (.error e)
      | .ok s => sources.addLogins ns (s.elim ls ls.addSecret) names) := by
  refine congrArg (Dialogue.ask (Query.secret ns name)) (funext fun answer => ?_)
  rcases answer with e | _ | s <;> rfl

/-- Secrets are read one after another, up to the first one that cannot be read. -/
theorem addLogins_transcript_iff : (sources.addLogins ns ls names).Transcript es r ↔
    (∃ found : List (Option Secret), found.length = names.length ∧
      es = reads ns names (found.map .ok) ∧
      r = .ok (found.foldl (fun ls s => s.elim ls ls.addSecret) ls)) ∨
    ∃ (found : List (Option Secret)) (e : ClusterError), found.length < names.length ∧
      es = reads ns names (found.map .ok ++ [.error e]) ∧ r = .error e := by
  induction names generalizing ls es r with
  | nil =>
    constructor
    · intro h
      obtain ⟨rfl, rfl⟩ := Dialogue.transcript_done_iff.1 h
      exact .inl ⟨[], rfl, rfl, rfl⟩
    · rintro (⟨found, hlength, rfl, rfl⟩ | ⟨found, e, hlength, -, -⟩)
      · obtain rfl := List.length_eq_zero_iff.1 hlength
        exact .done _
      · cases hlength
  | cons name names ih =>
    rw [addLogins_cons, Dialogue.transcript_ask_iff]
    constructor
    · rintro ⟨e | s, es, rfl, hrest⟩
      · obtain ⟨rfl, rfl⟩ := Dialogue.transcript_done_iff.1 hrest
        exact .inr ⟨[], e, Nat.succ_pos _, by simp [reads], rfl⟩
      · rcases ih.1 hrest with ⟨found, hlength, rfl, rfl⟩ | ⟨found, e, hlength, rfl, rfl⟩
        · exact .inl ⟨s :: found, congrArg (· + 1) hlength, rfl, rfl⟩
        · exact .inr ⟨s :: found, e, Nat.succ_lt_succ hlength, rfl, rfl⟩
    · rintro (⟨found, hlength, rfl, rfl⟩ | ⟨found, e, hlength, rfl, rfl⟩)
      · obtain ⟨s, found, rfl⟩ := List.exists_cons_of_length_eq_add_one hlength
        exact ⟨.ok s, _, rfl, ih.2 (.inl ⟨found, Nat.succ.inj hlength, rfl, rfl⟩)⟩
      · cases found with
        | nil => exact ⟨.error e, [], by simp [reads], .done _⟩
        | cons s found =>
          exact ⟨.ok s, _, rfl, ih.2 (.inr ⟨found, e, Nat.lt_of_succ_lt_succ hlength, rfl, rfl⟩)⟩

end

/-- **The last usable entry stands.** Secrets with logins are read one after another; the first that
cannot be read ends it with its error, and if there is none the logins are those of all that was
found. Among these a host has the last usable login for its registry, by the place of its secret and
then by the octets of its registry, and none if there is no usable one. A secret that is not there,
that has no document, or that has a malformed one where it counts might as well be left out. -/
theorem last_usable_entry_stands (ns : String) (names : List String) :
    (∀ es r, (sources.addLogins ns .anonymous names).Transcript es r ↔
      (∃ found : List (Option Secret), found.length = names.length ∧
        es = reads ns names (found.map .ok) ∧ r = .ok (Logins.ofSecrets found)) ∨
      ∃ (found : List (Option Secret)) (e : ClusterError), found.length < names.length ∧
        es = reads ns names (found.map .ok ++ [.error e]) ∧ r = .error e) ∧
    (∀ found host l,
      (Logins.ofSecrets found).get? host = some l ↔ Logins.LastUsable found host l) ∧
    (∀ found host, (Logins.ofSecrets found).get? host = none ↔
      ∀ i registry l, Logins.Usable found i registry l →
        registryKey registry ≠ registryKey host) ∧
    ∀ before s after, (∀ t : Secret, s = some t → PullSecret.Barren t) →
      Logins.ofSecrets (before ++ s :: after) = Logins.ofSecrets (before ++ after) :=
  ⟨fun _ _ => addLogins_transcript_iff, fun _ _ _ => Logins.get?_ofSecrets_eq_some_iff,
    fun _ _ => Logins.get?_ofSecrets_eq_none_iff, fun _ _ _ => Logins.ofSecrets_append_cons⟩

/-- A secret with two spellings of one registry. -/
def spelledTwice : Secret where
  data := some (.ofList [(".dockerconfigjson", .ofString (Json.render (.record [("auths", .record
    [("https://index.docker.io/v1/", .record [("auth", .text "YmF0Om1hbg==")]),
      ("docker.io", .record [("username", .text "robin"), ("password", .text "x")])])])))])

/-- A secret with a document that ends too early. -/
def cutShort : Secret where
  data := some (.ofList [(".dockercfg", .ofString "[")])

/-- Of two spellings in one secret the greater stands, and neither a secret that is not there nor a
malformed one makes a difference. -/
theorem last_usable_entry_stands_twice :
    let names := ["first", "missing", "malformed"]
    let found := [some spelledTwice, none, some cutShort]
    (sources.addLogins "default" .anonymous names).Transcript
        (reads "default" names (found.map .ok)) (.ok (.ofSecrets found)) ∧
      (Logins.ofSecrets found).get? "registry-1.docker.io" = some ⟨"bat", "man"⟩ ∧
      (Logins.ofSecrets found).get? "ghcr.io" = none := by
  intro names found
  obtain ⟨hreads, hstands, hnone, -⟩ := last_usable_entry_stands "default" names
  have hentries : (PullSecret.entries spelledTwice).entries =
      [("docker.io", { username := some "robin", password := some "x" }),
        ("https://index.docker.io/v1/", { auth := some "YmF0Om1hbg==" })] := by decide +kernel
  have hcut : PullSecret.entries cutShort = .empty := by decide +kernel
  have husable : ∀ i registry l, Logins.Usable found i registry l →
      i = 0 ∧ (registry = "docker.io" ∨ registry = "https://index.docker.io/v1/") := by
    rintro i registry l ⟨hs, he, -⟩
    have hentry := PullSecret.get?_entries_iff.2 he
    match i, hs with
    | 0, rfl =>
      rw [Table.get?_eq_some_iff, hentries] at hentry
      simp only [List.mem_cons, Prod.mk.injEq, List.not_mem_nil, or_false] at hentry
      exact ⟨rfl, hentry.imp And.left And.left⟩
    | 2, rfl =>
      rw [hcut] at hentry
      cases hentry
  refine ⟨(hreads _ _).2 (.inl ⟨found, rfl, rfl, rfl⟩), ?_, ?_⟩
  · have hget : (PullSecret.entries spelledTwice).get? "https://index.docker.io/v1/" =
        some { auth := some "YmF0Om1hbg==" } := by
      rw [Table.get?_eq_some_iff, hentries]
      exact .tail _ (.head _)
    have hbat : Logins.Usable found 0 "https://index.docker.io/v1/" ⟨"bat", "man"⟩ :=
      .intro rfl (PullSecret.get?_entries_iff.1 hget) (by decide +kernel)
    refine (hstands _ _ _).2 (.intro hbat (by decide) fun j other l h _ => ?_)
    obtain ⟨rfl, rfl | rfl⟩ := husable j other l h
    · exact .inr ⟨rfl, by decide +kernel⟩
    · exact .inr ⟨rfl, by decide +kernel⟩
  · refine (hnone _ _).2 fun i registry l h => ?_
    obtain ⟨-, rfl | rfl⟩ := husable i registry l h
    · decide
    · decide

end Reconcile

end Prewarm
