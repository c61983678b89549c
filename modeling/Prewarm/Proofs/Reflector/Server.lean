import Prewarm.Proofs.Store.Writes
import Prewarm.Proofs.Text.Numeral

/-!
# A server with a history

What a store is to mirror: a server on which objects are written and deleted, each time at a greater
version, with which the object is stamped. `state` is what such a server holds at a version. A
listing shows the state at a version (`Lists`), and a watch goes from a version to that of the first
change after it (`Next`, `state_of_next`) or to one before which nothing has changed (`Silent`,
`state_of_silent`). The objects of a later state are not older than those of an earlier one
(`not_isOlder`), so a store never takes a new object for an old one.
-/

namespace Prewarm

/-- Something that is done to an object of a server. -/
inductive Act (α : Type) where
  | written (a : α)
  /-- The object as it is told of when it is deleted. -/
  | deleted (a : α)

namespace Act

/-- The object that something is done to. -/
def object {α : Type} : Act α → α
  | written a | deleted a => a

/-- What is left of the object. -/
def result {α : Type} : Act α → Option α
  | written a => some a
  | deleted _ => none

/-- What leaves an object has written it. -/
theorem eq_written_of_result {α : Type} {c : Act α} {a : α} (h : c.result = some a) :
    c = .written a := by
  cases c with
  | written b => exact congrArg _ (Option.some.inj h)
  | deleted b => cases h

end Act

/-- What was done to the objects of a server, in order, each with its version. -/
structure Server (α : Type) [Resource α] where
  changes : List (Nat × Act α)
  increasing : changes.Pairwise (fun e e' => e.1 < e'.1)
  /-- The object of a change carries its version. -/
  stamped : ∀ e ∈ changes, (metadata e.2.object).resourceVersion = some (toString e.1)

namespace Server

section
variable {α : Type} [Resource α]

/-- The objects by their keys after one more change. -/
def after (objects : Key → Option α) (e : Nat × Act α) (k : Key) : Option α :=
  if k = keyOf e.2.object then e.2.result else objects k

/-- The changes up to a version. -/
def upTo (srv : Server α) (n : Nat) : List (Nat × Act α) :=
  srv.changes.filter (fun e => decide (e.1 ≤ n))

/-- The objects of a server by their keys, at a version. -/
def state (srv : Server α) (n : Nat) : Key → Option α := (srv.upTo n).foldl after (fun _ => none)

/-- The changes after a version up to another. -/
def between (srv : Server α) (n n' : Nat) : List (Nat × Act α) :=
  (srv.upTo n').filter (fun e => decide (n < e.1))

/-- A listing of all objects at a version, in any order. -/
structure Lists (srv : Server α) (n : Nat) (as : List α) : Prop where
  nodup : (as.map keyOf).Nodup
  mem_iff : ∀ a, a ∈ as ↔ srv.state n (keyOf a) = some a

/-- The first change after a version. -/
structure Next (srv : Server α) (n : Nat) (e : Nat × Act α) : Prop where
  mem : e ∈ srv.changes
  lt : n < e.1
  first : ∀ e' ∈ srv.changes, e'.1 ≤ n ∨ e.1 ≤ e'.1

/-- There is no change after a version up to another. -/
def Silent (srv : Server α) (n n' : Nat) : Prop := ∀ e ∈ srv.changes, n < e.1 → n' < e.1

variable {srv : Server α} {n n' : Nat} {e : Nat × Act α} {a b : α} {k : Key} {as : List α}

/-! ## From one version to the next -/

/-- The first change after a version is the last one of those up to its own. -/
theorem upTo_of_next (h : srv.Next n e) : srv.upTo e.1 = srv.upTo n ++ [e] := by
  obtain ⟨before, later, hchanges⟩ := List.append_of_mem h.mem
  obtain ⟨-, hlater, hbefore⟩ := List.pairwise_append.1 (hchanges ▸ srv.increasing)
  have hlt : ∀ x ∈ later, e.1 < x.1 := (List.pairwise_cons.1 hlater).1
  have hle : ∀ x ∈ before, x.1 ≤ n := fun x hx => by
    have hxe : x.1 < e.1 := hbefore x hx e (.head _)
    have hmem : x ∈ srv.changes := hchanges ▸ List.mem_append_left _ hx
    exact (h.first x hmem).resolve_right (Nat.not_le.2 hxe)
  -- every change before `e` is up to `n`, and every later one is after `e`
  have hfilter : ∀ m, n ≤ m → m ≤ e.1 →
      srv.upTo m = before ++ if e.1 ≤ m then [e] else [] := by
    intro m hnm hme
    have hnone : later.filter (fun x => decide (x.1 ≤ m)) = [] :=
      List.filter_eq_nil_iff.2 fun x hx => by simpa using Nat.lt_of_le_of_lt hme (hlt x hx)
    have hall : before.filter (fun x => decide (x.1 ≤ m)) = before :=
      List.filter_eq_self.2 fun x hx => by simpa using Nat.le_trans (hle x hx) hnm
    rw [upTo, hchanges, List.filter_append, List.filter_cons, hall, hnone]
    simp
  have hle := Nat.le_of_lt h.lt
  rw [hfilter e.1 hle (Nat.le_refl _), hfilter n (Nat.le_refl _) hle, if_pos (Nat.le_refl _),
    if_neg (Nat.not_le.2 h.lt), List.append_nil]

/-- Where there is no change, the changes up to a later version are the same. -/
theorem upTo_of_silent (h : srv.Silent n n') (hle : n ≤ n') : srv.upTo n' = srv.upTo n := by
  refine List.filter_congr fun x hx => decide_eq_decide.2 ⟨fun hx' => ?_, fun hx' => ?_⟩
  · exact Nat.not_lt.1 fun hlt => Nat.not_lt.2 hx' (h x hx hlt)
  · exact Nat.le_trans hx' hle

/-- The objects at the first change after a version are those before, after that change. -/
theorem state_of_next (h : srv.Next n e) : srv.state e.1 = after (srv.state n) e := by
  unfold state
  rw [upTo_of_next h, List.foldl_append]
  rfl

/-- Where there is no change, the objects stay as they are. -/
theorem state_of_silent (h : srv.Silent n n') (hle : n ≤ n') : srv.state n' = srv.state n := by
  unfold state
  rw [upTo_of_silent h hle]

/-- There is no change after a version up to the same one. -/
@[simp] theorem between_self (srv : Server α) (n : Nat) : srv.between n n = [] := by
  refine List.filter_eq_nil_iff.2 fun x hx => ?_
  obtain ⟨-, hx⟩ := List.mem_filter.1 hx
  simpa using hx

/-- The first change after a version comes to those before it. -/
theorem between_of_next {m : Nat} (h : srv.Next n e) (hle : m ≤ n) :
    srv.between m e.1 = srv.between m n ++ [e] := by
  have hlt : m < e.1 := Nat.lt_of_le_of_lt hle h.lt
  unfold between
  rw [upTo_of_next h, List.filter_append]
  simp [hlt]

/-- Where there is no change, none comes to those before. -/
theorem between_of_silent {m : Nat} (h : srv.Silent n n') (hle : n ≤ n') :
    srv.between m n' = srv.between m n := by
  unfold between
  rw [upTo_of_silent h hle]

/-! ## The objects of a state -/

/-- The object of a key was there before, and nothing was done to the key; or it was written, and
nothing was done to the key since. -/
theorem exists_written {es : List (Nat × Act α)} (hs : es.Pairwise (fun e e' => e.1 < e'.1))
    {objects : Key → Option α} (h : es.foldl after objects k = some a) :
    (objects k = some a ∧ ∀ e ∈ es, keyOf e.2.object ≠ k) ∨
    (keyOf a = k ∧ ∃ v, (v, .written a) ∈ es ∧ ∀ e ∈ es, keyOf e.2.object = k → e.1 ≤ v) := by
  induction es generalizing objects with
  | nil => exact .inl ⟨h, nofun⟩
  | cons e es ih =>
    obtain ⟨hlt, hs⟩ := List.pairwise_cons.1 hs
    rcases ih hs h with ⟨hobj, hne⟩ | ⟨hk, v, hv, hlast⟩
    · unfold after at hobj
      split at hobj
      · next hke =>
        have he : e.2 = .written a := Act.eq_written_of_result hobj
        refine .inr ⟨by rw [hke, he]; rfl, e.1, ?_, fun x hx hxk => ?_⟩
        · rw [← he]
          exact .head _
        · rcases List.mem_cons.1 hx with rfl | hx
          · exact Nat.le_refl _
          · exact absurd hxk (hne x hx)
      · next hke =>
        refine .inl ⟨hobj, fun x hx => ?_⟩
        rcases List.mem_cons.1 hx with rfl | hx
        · exact Ne.symm hke
        · exact hne x hx
    · refine .inr ⟨hk, v, List.mem_cons_of_mem e hv, fun x hx hxk => ?_⟩
      rcases List.mem_cons.1 hx with rfl | hx
      · exact Nat.le_of_lt (hlt _ hv)
      · exact hlast x hx hxk

/-- Each object of a state carries the version at which it was written, the last up to the version
of the state. -/
theorem exists_version (h : srv.state n k = some a) :
    keyOf a = k ∧ ∃ v, (metadata a).resourceVersion = some (toString v) ∧ v ≤ n ∧
      (v, .written a) ∈ srv.changes ∧
      ∀ e ∈ srv.changes, e.1 ≤ n → keyOf e.2.object = k → e.1 ≤ v := by
  obtain ⟨hk, v, hv, hlast⟩ :=
    (exists_written (srv.increasing.filter _) h).resolve_left (by simp)
  obtain ⟨hv, hvn⟩ := List.mem_filter.1 hv
  refine ⟨hk, v, srv.stamped _ hv, by simpa using hvn, hv, fun e he hen => ?_⟩
  exact hlast e (List.mem_filter.2 ⟨he, by simpa using hen⟩)

/-- An object with a version that is not less is not older. -/
theorem isOlder_eq_false {v w : Nat} (ha : (metadata a).resourceVersion = some (toString v))
    (hb : (metadata b).resourceVersion = some (toString w)) (hle : v ≤ w) :
    Store.isOlder b a = false := by
  unfold Store.isOlder Metadata.versionNumber?
  rw [ha, hb]
  split
  · next hv hw =>
    rw [Text.eq_of_readWord_toString hv, Text.eq_of_readWord_toString hw]
    simpa using hle
  · rfl

/-- An object of a later state is not older than that of an earlier one. -/
theorem not_isOlder (ha : srv.state n k = some a) (hb : srv.state n' k = some b) (hle : n ≤ n') :
    Store.isOlder b a = false := by
  obtain ⟨hka, v, hva, hvn, hmem, -⟩ := exists_version ha
  obtain ⟨-, w, hwb, -, -, hlast⟩ := exists_version hb
  exact isOlder_eq_false hva hwb (hlast _ hmem (Nat.le_trans hvn hle) hka)

/-- What is found in a listing is what the server holds. -/
theorem Lists.find? (h : srv.Lists n as) (k : Key) :
    as.find? (fun a => decide (keyOf a = k)) = srv.state n k := by
  cases hk : srv.state n k with
  | none =>
    refine List.find?_eq_none.2 fun a ha hak => ?_
    have hstate := (h.mem_iff a).1 ha
    rw [of_decide_eq_true hak, hk] at hstate
    cases hstate
  | some a =>
    have hak : keyOf a = k := (exists_version hk).1
    have hmem : a ∈ as := (h.mem_iff a).2 (hak.symm ▸ hk)
    cases hfind : as.find? (fun b => decide (keyOf b = k)) with
    | none => exact absurd (decide_eq_true hak) (List.find?_eq_none.1 hfind a hmem)
    | some b =>
      have hbk : keyOf b = k := by simpa using List.find?_some hfind
      have hstate := (h.mem_iff b).1 (List.mem_of_find?_eq_some hfind)
      rw [hbk, hk] at hstate
      exact hstate.symm

end

end Server

end Prewarm
