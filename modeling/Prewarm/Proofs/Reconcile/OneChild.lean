import Prewarm.Proofs.Reconcile.Run

/-!
# One child for a generation

The local copy of the children lags behind the cluster, so work on a key can find no child although
one was created. What keeps it from creating a second one is the expectation of the first. `Guard`
is what a creation leaves behind, and every step keeps it: the child is about to be expected, or it
is expected and whatever is under way will find that out before it creates anything, or its time is
over, or work on the key has found something that ends the expectation (`Excused`).
-/

namespace Prewarm.Reconcile

/-- Whether what is seen is that work on a key has created a child of a version. -/
def Deed.Creates (k : Key) (v : String) : Deed → Prop
  | .answered k' (.create _ child) a => k' = k ∧ a = .ok () ∧
      child.metadata.labelMap.get? Generation.versionLabel = some v
  | _ => False

/-- Work on a key has found in the stores what ends the expectation of a child of a version: a child
of the current generation, no warm image, or a warm image of another version without children. -/
def Excused (k : Key) (v : String) (σ : History) : Prop :=
  (∃ t v', (t, .begun k (.present v')) ∈ σ) ∨ (∃ t, (t, .begun k .absent) ∈ σ) ∨
    ∃ t v', v' ≠ v ∧ (t, .begun k (.childless v')) ∈ σ

/-- Work that creates nothing while a child of a version is expected for a key. -/
inductive Quiet (k : Key) (v : String) : Rest → Prop
  | closing {d : Rest} : Closing d → Quiet k v d
  | isPending {next : Bool → Rest} : Closing (next true) → Quiet k v (.ask (.isPending k v) next)

/-- What the creation of a child of a version for a key has left behind, after what was seen since.
-/
inductive Guard (k : Key) (v : String) (σ : History) (s : State) : Prop
  /-- The child is about to be expected. -/
  | creating {next : Unit → Rest} :
      s.work.get? k = some (.ask (.expect k v) next) → Closing (next ()) → Guard k v σ s
  /-- The child is expected. -/
  | expected {t : Instant} :
      (t, .answered k (.expect k v) ()) ∈ σ →
      s.expectations.pending.get? k =
        some ⟨v, ⟨t.nanos + Expectations.standardLifetime.nanos⟩⟩ →
      (∀ d, s.work.get? k = some d → Quiet k v d) → Guard k v σ s
  /-- The child was expected for as long as it is. -/
  | expired {t : Instant} :
      (t, .answered k (.expect k v) ()) ∈ σ →
      t.nanos + Expectations.standardLifetime.nanos ≤ s.now.nanos → Guard k v σ s
  | excused : Excused k v σ → Guard k v σ s

section
variable {k : Key} {v : String} {σ τ : History} {s s' : State} {e : Deed} {now : Instant}

theorem Excused.append (h : Excused k v σ) (σ' : History) : Excused k v (σ ++ σ') :=
  h.imp (fun ⟨t, v', hm⟩ => ⟨t, v', List.mem_append_left _ hm⟩) (Or.imp
    (fun ⟨t, hm⟩ => ⟨t, List.mem_append_left _ hm⟩)
    (fun ⟨t, v', hv, hm⟩ => ⟨t, v', hv, List.mem_append_left _ hm⟩))

/-- A child that is expected for a version is pending as long as its time is not over. -/
theorem isPending_of_lt {x : Expectations} {d : Instant} (h : x.pending.get? k = some ⟨v, d⟩)
    (hnow : now.nanos < d.nanos) : x.isPending k v now = (true, x) := by
  unfold Expectations.isPending
  rw [h]
  exact if_pos ⟨rfl, hnow⟩

/-- A child whose time is over is not expected any more. -/
theorem isPending_of_le {x : Expectations} {d : Instant} (h : x.pending.get? k = some ⟨v, d⟩)
    (hnow : d.nanos ≤ now.nanos) :
    x.isPending k v now = (false, { x with pending := x.pending.erase k }) := by
  unfold Expectations.isPending
  rw [h]
  exact if_neg fun hlt => Nat.not_lt.2 hnow hlt.2

/-! ## Steps -/

/-- While the child is expected, work that goes on quietly leaves it so. -/
theorem Guard.of_quiet {t : Instant} {x : Expectations} {d : Rest}
    (hmem : (t, .answered k (.expect k v) ()) ∈ σ)
    (hpending : x.pending.get? k = some ⟨v, ⟨t.nanos + Expectations.standardLifetime.nanos⟩⟩)
    (hq : Quiet k v d) :
    Guard k v σ { s with expectations := x, work := s.work.insert k d } := by
  refine .expected hmem hpending fun d' hd => ?_
  rw [Table.get?_insert_self] at hd
  cases hd
  exact hq

/-- Work on the key that begins while the child is expected asks whether it is, or has found what
ends the expectation. -/
theorem Guard.begin {t : Instant} {c : Context} (hmem : (t, .answered k (.expect k v) ()) ∈ σ)
    (hpending : s.expectations.pending.get? k =
      some ⟨v, ⟨t.nanos + Expectations.standardLifetime.nanos⟩⟩) :
    Guard k v (σ ++ [(s.now, .begun k (found c k))])
      { s with work := s.work.insert k (dialogue c k) } := by
  have hbegun : ∀ f, found c k = f →
      (s.now, Deed.begun k f) ∈ σ ++ [(s.now, .begun k (found c k))] :=
    fun f hf => hf ▸ List.mem_append_right _ (.head _)
  have hquiet : Quiet k v (dialogue c k) →
      Guard k v (σ ++ [(s.now, .begun k (found c k))])
        { s with work := s.work.insert k (dialogue c k) } :=
    .of_quiet (List.mem_append_left _ hmem) hpending
  have hopening := opening_dialogue c k
  generalize hf : found c k = f at hopening
  generalize dialogue c k = d at hopening hquiet
  cases hopening with
  | invalidKey e => exact hf ▸ hquiet (.closing (.done _))
  | absent _ => exact .excused (.inr (.inl ⟨_, hf ▸ hbegun _ hf⟩))
  | @present v' _ _ => exact .excused (.inl ⟨_, v', hf ▸ hbegun _ hf⟩)
  | @childless v' _ htrue _ =>
    by_cases hv : v' = v
    · subst hv
      exact hf ▸ hquiet (.isPending htrue)
    · exact .excused (.inr (.inr ⟨_, v', hv, hf ▸ hbegun _ hf⟩))

/-- An answer to work that creates nothing while the child is expected. Only the question whether it
is touches the expectations, and it is said not to be when its time is over. -/
theorem Guard.answer {t : Instant} {q : Query} {next : q.Answer → Rest} {a : q.Answer}
    {x : Expectations} (hmem : (t, .answered k (.expect k v) ()) ∈ σ)
    (hpending : s.expectations.pending.get? k =
      some ⟨v, ⟨t.nanos + Expectations.standardLifetime.nanos⟩⟩)
    (hq : Quiet k v (.ask q next)) (ha : Answers s.now s.expectations q a x) :
    Guard k v σ { s with expectations := x, work := s.work.insert k (next a) } := by
  have hclosing : x = s.expectations → Closing (next a) →
      Guard k v σ { s with expectations := x, work := s.work.insert k (next a) } :=
    fun hx hc => .of_quiet hmem (hx ▸ hpending) (.closing hc)
  cases hq with
  | closing hc =>
    cases hc with
    | deleteCollection hc | publish hc => exact hclosing ha (hc a)
  | isPending htrue =>
    rcases Nat.lt_or_ge s.now.nanos (t.nanos + Expectations.standardLifetime.nanos) with hlt | hge
    · obtain ⟨rfl, rfl⟩ := Prod.mk.inj (Eq.trans ha (isPending_of_lt hpending hlt))
      exact hclosing rfl htrue
    · exact .expired hmem hge

/-- A child that is about to be expected is expected as soon as the work on its key goes on. -/
theorem Step.guard_of_creating {next : Unit → Rest} (hs : Step s e s') (hsound : Sound s)
    (hwork : s.work.get? k = some (.ask (.expect k v) next)) (hclosing : Closing (next ())) :
    Guard k v (σ ++ [(s.now, e)]) s' := by
  by_cases hk : k = e.key
  · cases hs with
    | @begin k' c hnone =>
      obtain rfl : k = k' := hk
      cases hnone.symm.trans hwork
    | @answer k' q next a x hask ha =>
      obtain rfl : k = k' := hk
      cases hwork.symm.trans hask
      have hx : x = s.expectations.expect k v s.now := ha
      refine .of_quiet (List.mem_append_right _ (.head _)) ?_ (.closing hclosing)
      rw [hx, ← hsound.lifetime]
      exact Table.get?_insert_self ..
    | @breakOff k' q next hask hout =>
      obtain rfl : k = k' := hk
      cases hwork.symm.trans hask
      cases hout
    | @finish k' r hdone =>
      obtain rfl : k = k' := hk
      cases hwork.symm.trans hdone
  · exact .creating ((hs.of_ne_key hsound hk).1.trans hwork) hclosing

/-- A child that is expected stays so whatever quiet work on its key does. -/
theorem Step.guard_of_expected {t : Instant} (hs : Step s e s') (hsound : Sound s)
    (hmem : (t, .answered k (.expect k v) ()) ∈ σ)
    (hpending : s.expectations.pending.get? k =
      some ⟨v, ⟨t.nanos + Expectations.standardLifetime.nanos⟩⟩)
    (hquiet : ∀ d, s.work.get? k = some d → Quiet k v d) :
    Guard k v (σ ++ [(s.now, e)]) s' := by
  have hmem' := List.mem_append_left [(s.now, e)] hmem
  by_cases hk : k = e.key
  · cases hs with
    | @begin k' c hnone =>
      obtain rfl : k = k' := hk
      exact .begin hmem hpending
    | @answer k' q next a x hask ha =>
      obtain rfl : k = k' := hk
      exact .answer hmem' hpending (hquiet _ hask) ha
    | @breakOff k' | @finish k' =>
      obtain rfl : k = k' := hk
      refine .expected hmem' hpending fun d hd => ?_
      rw [Table.get?_erase_self] at hd
      cases hd
  · obtain ⟨hwork, hexp⟩ := hs.of_ne_key hsound hk
    exact .expected hmem' (hexp.trans hpending) fun d hd => hquiet d (hwork.symm.trans hd)

/-- Every step keeps what a creation has left behind. -/
theorem Guard.step (h : Guard k v σ s) (hsound : Sound s) (hs : Step s e s') :
    Guard k v (σ ++ [(s.now, e)]) s' := by
  cases h with
  | creating hwork hclosing => exact hs.guard_of_creating hsound hwork hclosing
  | expected hmem hpending hquiet => exact hs.guard_of_expected hsound hmem hpending hquiet
  | expired hmem ht => exact .expired (List.mem_append_left _ hmem) (hs.now_eq ▸ ht)
  | excused h => exact .excused (h.append _)

theorem Guard.pass (h : Guard k v σ s) (hnow : s.now.nanos ≤ now.nanos) :
    Guard k v σ { s with now := now } := by
  cases h with
  | creating hwork hclosing => exact .creating hwork hclosing
  | expected hmem hpending hquiet => exact .expected hmem hpending hquiet
  | expired hmem ht => exact .expired hmem (Nat.le_trans ht hnow)
  | excused h => exact .excused h

/-! ## Runs -/

/-- A creation is a question of work on its key. After the answer the child is about to be expected.
-/
theorem Step.creates (hs : Step s e s') (hsound : Sound s) (he : e.Creates k v) :
    (∃ ns child next, s.work.get? k = some (.ask (.create ns child) next)) ∧ Guard k v [] s' := by
  cases hs with
  | begin | breakOff | finish => exact he.elim
  | @answer k' q next a x hask ha =>
    cases q with
    | create ns child =>
      obtain ⟨rfl, rfl, hlabel⟩ := he
      refine ⟨⟨ns, child, next, hask⟩, ?_⟩
      cases hsound.course _ _ hask with
      | closing h => cases h
      | creating h =>
        cases h with
        | create hlabel' _ hok hclosing =>
          cases hlabel'.symm.trans hlabel
          refine .creating ?_ hclosing
          rw [Table.get?_insert_self, hok]
    | isPending | expect | observed | secret | digest | deleteCollection | publish => exact he.elim

/-- While a creation is guarded, no other one is asked for unless the time of the child is over or
the work has found what ends the expectation. -/
theorem Guard.of_creating (h : Guard k v σ s) {ns : String} {child : DaemonSet}
    {next : Except ClusterError Unit → Rest}
    (hwork : s.work.get? k = some (.ask (.create ns child) next)) :
    (∃ t, (t, .answered k (.expect k v) ()) ∈ σ ∧
      t.nanos + Expectations.standardLifetime.nanos ≤ s.now.nanos) ∨ Excused k v σ := by
  cases h with
  | creating hwork' _ => cases hwork.symm.trans hwork'
  | expected _ _ hquiet =>
    cases hquiet _ hwork with
    | closing h => cases h
  | expired hmem ht => exact .inl ⟨_, hmem, ht⟩
  | excused h => exact .inr h

/-- The state a reconciler was in before something was seen. -/
theorem Run.before {τ τ' : History} {t : Instant} (h : Run (τ ++ (t, e) :: τ') s) :
    ∃ s₀ s₁, Run τ s₀ ∧ s₀.now = t ∧ Step s₀ e s₁ :=
  h.since (motive := fun _ _ => ∃ s₀ s₁, Run τ s₀ ∧ s₀.now = t ∧ Step s₀ e s₁)
    (fun hrun ht hs => ⟨_, _, hrun, ht, hs⟩) (fun _ _ ih => ih) fun _ ih => ih

/-- What a creation has left behind, in the course of a run. -/
theorem Run.guard {τ σ : History} {t : Instant} (h : Run (τ ++ (t, e) :: σ) s)
    (he : e.Creates k v) : Guard k v σ s :=
  h.since (motive := Guard k v) (fun hrun _ hs => (hs.creates hrun.sound he).2)
    (fun hrun hs ih => ih.step hrun.sound hs) fun hnow ih => ih.pass hnow

/-- Between two creations of a child for a key and a version, the child of the first was expected
for as long as it is, or work on the key has found a child of the current generation, no warm image,
or one of another version without children. -/
theorem one_child_per_generation {τ τ₁ τ₂ τ₃ : History} {t t' : Instant} {e e' : Deed}
    (h : Run τ s) (hτ : τ = τ₁ ++ (t, e) :: τ₂ ++ (t', e') :: τ₃)
    (he : e.Creates k v) (he' : e'.Creates k v) :
    (∃ t₀, (t₀, .answered k (.expect k v) ()) ∈ τ₂ ∧
      t₀.nanos + Expectations.standardLifetime.nanos ≤ t'.nanos) ∨
    (∃ t₀ v', (t₀, .begun k (.present v')) ∈ τ₂) ∨
    (∃ t₀, (t₀, .begun k .absent) ∈ τ₂) ∨
    ∃ t₀ v', v' ≠ v ∧ (t₀, .begun k (.childless v')) ∈ τ₂ := by
  subst hτ
  obtain ⟨s₀, s₁, hrun, rfl, hs⟩ := h.before
  obtain ⟨⟨ns, child, next, hwork⟩, -⟩ := hs.creates hrun.sound he'
  exact (hrun.guard he).of_creating hwork

/-- Work that finds no child, with an image that is pinned already, creates one if none is expected.
-/
theorem Run.create {pending : Bool → Rest} {created : Except ClusterError Unit → Rest}
    {x : Expectations} (h : Run τ s) (c : Context) (ns : String) (child : DaemonSet)
    (hidle : s.work.get? k = none) (hd : dialogue c k = .ask (.isPending k v) pending)
    (hp : pending false = .ask (.create ns child) created)
    (hx : s.expectations.isPending k v s.now = (false, x)) :
    ∃ s', Run (τ ++ [(s.now, .begun k (found c k)), (s.now, .answered k (.isPending k v) false),
        (s.now, .answered k (.create ns child) (.ok ()))]) s' ∧
      s'.now = s.now ∧ s'.expectations = x ∧ s'.work.get? k = some (created (.ok ())) := by
  have h₁ := h.next (.begin c hidle)
  have h₂ := h₁.next (.answer (k := k) (q := .isPending k v) (a := false)
    ((Table.get?_insert_self ..).trans (congrArg some hd)) hx.symm)
  have h₃ := h₂.next (.answer (k := k) (q := .create ns child) (a := .ok ())
    ((Table.get?_insert_self ..).trans (congrArg some hp)) rfl)
  rw [List.append_assoc, List.append_assoc] at h₃
  exact ⟨_, h₃, rfl, rfl, Table.get?_insert_self ..⟩

/-- A second child is created when the first, which has not shown in the local copy, was expected
for 5 minutes. Work after the first creation has broken off. -/
theorem one_child_per_generation_expired :
    ∃ (s : State) (child : DaemonSet) (τ₁ τ₂ : History),
      Run (τ₁ ++ (⟨0⟩, .answered "ns/a" (.create "ns" child) (.ok ())) :: τ₂ ++
        [(⟨300 * 1_000_000_000⟩, .answered "ns/a" (.create "ns" child) (.ok ()))]) s ∧
      Deed.Creates "ns/a" "1" (.answered "ns/a" (.create "ns" child) (.ok ())) ∧
      ((∃ t₀, (t₀, .answered "ns/a" (.expect "ns/a" "1") ()) ∈ τ₂ ∧
        t₀.nanos + Expectations.standardLifetime.nanos ≤ 300 * 1_000_000_000) ∨
        Excused "ns/a" "1" τ₂) := by
  let wi : WarmImage :=
    { metadata := { name := some "a", ns := some "ns", resourceVersion := some "1" }, image := "" }
  let c : Context := ⟨.forController, { items := .ofList [("ns/a", wi)] }, {}, "sleeper"⟩
  let child : DaemonSet := .ofWarmImage wi "" "sleeper"
    { apiVersion := ObjectType.warmImage.kind.apiVersion
      kind := "WarmImage"
      name := "a"
      uid := ""
      controller := some true
      blockOwnerDeletion := some true }
  obtain ⟨s₁, h₁, hnow₁, hx₁, hw₁⟩ :=
    (Run.start ⟨0⟩).create (k := "ns/a") (v := "1") c "ns" child rfl rfl rfl rfl
  have h₂ := h₁.next (.answer (a := ()) hw₁ (show Answers _ _ (.expect "ns/a" "1") () _ from rfl))
  have h₃ := h₂.next (.breakOff (k := "ns/a") (q := .publish _ _)
    (Table.get?_insert_self ..) rfl)
  have hnow : s₁.now.nanos ≤ (⟨300 * 1_000_000_000⟩ : Instant).nanos := by
    rw [hnow₁]
    decide
  have hpending : (s₁.expectations.expect "ns/a" "1" s₁.now).pending.get? "ns/a" =
      some ⟨"1", ⟨300 * 1_000_000_000⟩⟩ := by
    rw [hx₁, hnow₁]
    rfl
  obtain ⟨s₅, h₅, -⟩ := (h₃.pass hnow).create (k := "ns/a") (v := "1")
    c "ns" child (Table.get?_erase_self ..) rfl rfl
    (isPending_of_le hpending (Nat.le_refl _))
  have hcreates : Deed.Creates "ns/a" "1" (.answered "ns/a" (.create "ns" child) (.ok ())) :=
    ⟨rfl, rfl, labels_version wi⟩
  exact ⟨s₅, child, [_, _], [_, _, _, _], h₅, hcreates,
    one_child_per_generation h₅ (show _ = [_, _] ++ _ :: [_, _, _, _] ++ _ :: [] from rfl)
      hcreates hcreates⟩

end

end Prewarm.Reconcile
