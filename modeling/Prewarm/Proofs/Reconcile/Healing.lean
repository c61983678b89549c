import Prewarm.Proofs.Reconcile.OneChild

/-!
# A child that is gone is made again

When work on a key finds a child of the current generation, no child is expected for the key from
then on (`Seen`), until another one is created. So work that later finds no child creates one before
it ends well (`Making`), and does not wait until the time of the expectation is over
(`healed_once_seen`).

It is work that has to find the child. A child that comes to the store and is gone again while no
work on the key begins stays expected, and work that finds none afterwards creates none
(`unhealed_if_unseen`).
-/

namespace Prewarm.Reconcile

/-- No child is expected for a key, or work on the key is about to see to that. -/
inductive Seen (k : Key) (s : State) : Prop
  | about {next : Unit → Rest} : s.work.get? k = some (.ask (.observed k) next) → Seen k s
  | unexpected : s.expectations.pending.get? k = none → Seen k s

/-- How far work on a key has come that has found no child while none was expected, after what was
seen since. -/
inductive Making (k : Key) (v : String) (σ : History) (s : State) : Prop
  /-- It asks whether a child is expected. -/
  | asking {next : Bool → Rest} :
      s.work.get? k = some (.ask (.isPending k v) next) → Creating k v (next false) →
      s.expectations.pending.get? k = none → Making k v σ s
  | creating {d : Rest} : s.work.get? k = some d → Creating k v d → Making k v σ s
  | created {t : Instant} {e : Deed} : (t, e) ∈ σ → e.Creates k v → Making k v σ s
  | idle : s.work.get? k = none → Making k v σ s

section
variable {k : Key} {v : String} {σ τ : History} {s s' : State} {e : Deed} {now : Instant}

/-! ## Steps -/

/-- As long as no child is expected for a key, no answer but that to `expect` changes it. -/
theorem Answers.get?_pending_none {q : Query} {next : q.Answer → Rest} {a : q.Answer}
    {x x' : Expectations} (h : Answers now x q a x') (hc : Course k (.ask q next))
    (hq : ∀ v, q ≠ .expect k v) (hx : x.pending.get? k = none) : x'.pending.get? k = none := by
  rcases hc.asks with ⟨v, rfl⟩ | ⟨v, rfl⟩ | rfl | hout
  · have h : (a, x') = x.isPending k v now := h
    rw [Expectations.isPending_of_none hx] at h
    cases h
    exact hx
  · exact absurd rfl (hq v)
  · rw [show x' = x.observed k from h]
    exact Table.get?_erase_self ..
  · rw [h.eq_of_isOutside hout, hx]

/-- Work on a key begins when none is under way, with what it finds. -/
theorem Step.of_begun {f : Finding} (hs : Step s (.begun k f) s') :
    s.work.get? k = none ∧ s'.expectations = s.expectations ∧
      ∃ d, s'.work.get? k = some d ∧ Opening k f d := by
  generalize he : Deed.begun k f = e at hs
  cases hs with
  | @begin k' c hnone =>
    injection he with hk hf
    subst hk hf
    have hopened : (s.work.insert k (dialogue c k)).get? k = some (dialogue c k) :=
      Table.get?_insert_self ..
    exact ⟨hnone, rfl, dialogue c k, hopened, opening_dialogue c k⟩
  | answer | breakOff | finish => cases he

theorem Seen.step (h : Seen k s) (hsound : Sound s) (hs : Step s e s')
    (he : ∀ v, e ≠ .answered k (.expect k v) ()) : Seen k s' := by
  by_cases hk : k = e.key
  · cases hs with
    | @begin k' c hnone =>
      obtain rfl : k = k' := hk
      cases h with
      | about hwork => cases hnone.symm.trans hwork
      | unexpected hx => exact .unexpected hx
    | @answer k' q next a x hask ha =>
      obtain rfl : k = k' := hk
      cases h with
      | about hwork =>
        cases hask.symm.trans hwork
        rw [show x = s.expectations.observed k from ha]
        exact .unexpected (Table.get?_erase_self ..)
      | unexpected hx =>
        refine .unexpected (ha.get?_pending_none (hsound.course _ _ hask) (fun v hq => ?_) hx)
        subst hq
        exact he v rfl
    | @breakOff k' q next hask hout =>
      obtain rfl : k = k' := hk
      cases h with
      | about hwork =>
        cases hask.symm.trans hwork
        cases hout
      | unexpected hx => exact .unexpected hx
    | @finish k' r hdone =>
      obtain rfl : k = k' := hk
      cases h with
      | about hwork => cases hdone.symm.trans hwork
      | unexpected hx => exact .unexpected hx
  · obtain ⟨hwork, hexp⟩ := hs.of_ne_key hsound hk
    cases h with
    | about h => exact .about (hwork.trans h)
    | unexpected h => exact .unexpected (hexp.trans h)

/-- Every answer brings work on its way to a child further, and the one to its creation is seen. -/
theorem Making.answer {q : Query} {next : q.Answer → Rest} {x : Expectations} (a : q.Answer)
    (hc : Creating k v (.ask q next)) :
    Making k v (σ ++ [(s.now, .answered k q a)])
      { s with expectations := x, work := s.work.insert k (next a) } := by
  have hwork : (s.work.insert k (next a)).get? k = some (next a) :=
    Table.get?_insert_self ..
  cases hc with
  | secret hc | digest hc => exact .creating hwork (hc a)
  | create hlabel herror _ _ =>
    cases a with
    | error e =>
      refine .creating hwork ?_
      rw [herror]
      exact .failed _
    | ok u => exact .created (List.mem_append_right _ (.head _)) ⟨rfl, rfl, hlabel⟩

theorem Making.step (h : Making k v σ s) (hsound : Sound s) (hs : Step s e s')
    (he : ∀ f, e ≠ .begun k f) : Making k v (σ ++ [(s.now, e)]) s' := by
  by_cases hk : k = e.key
  · cases hs with
    | @begin k' c _ =>
      obtain rfl : k = k' := hk
      exact absurd rfl (he _)
    | @answer k' q next a x hask ha =>
      obtain rfl : k = k' := hk
      cases h with
      | asking hwork hc hx =>
        cases hask.symm.trans hwork
        have ha : (a, x) = s.expectations.isPending k v s.now := ha
        rw [Expectations.isPending_of_none hx] at ha
        cases ha
        exact .creating (Table.get?_insert_self ..) hc
      | creating hwork hc =>
        cases hask.symm.trans hwork
        exact .answer a hc
      | created hmem hcreates => exact .created (List.mem_append_left _ hmem) hcreates
      | idle hwork => cases hask.symm.trans hwork
    | @breakOff k' | @finish k' =>
      obtain rfl : k = k' := hk
      exact .idle (Table.get?_erase_self ..)
  · obtain ⟨hwork, hexp⟩ := hs.of_ne_key hsound hk
    cases h with
    | asking h hc hx => exact .asking (hwork.trans h) hc (hexp.trans hx)
    | creating h hc => exact .creating (hwork.trans h) hc
    | created hmem hcreates => exact .created (List.mem_append_left _ hmem) hcreates
    | idle h => exact .idle (hwork.trans h)

/-! ## Runs -/

/-- No child is expected for a key after work on it has found one, until another is created. -/
theorem Run.seen {t : Instant} {v' : String} (h : Run (τ ++ (t, .begun k (.present v')) :: σ) s)
    (hσ : ∀ t w, (t, .answered k (.expect k w) ()) ∉ σ) : Seen k s := by
  refine h.since (motive := fun σ s => (∀ t w, (t, .answered k (.expect k w) ()) ∉ σ) → Seen k s)
    (fun _ _ hs _ => ?_) (fun hrun hs ih hσ => ?_) (fun _ ih hσ => ?_) hσ
  · obtain ⟨-, -, d, hwork, hopening⟩ := hs.of_begun
    cases hopening with
    | present _ => exact .about hwork
  · refine (ih fun t w hm => hσ t w (List.mem_append_left _ hm)).step hrun.sound hs fun w hw => ?_
    subst hw
    exact hσ _ w (List.mem_append_right _ (.head _))
  · cases ih hσ with
    | about h => exact .about h
    | unexpected h => exact .unexpected h

/-- Work on a key that finds no child while none is expected is on its way to one. -/
theorem Run.making {t : Instant} (h : Run (τ ++ (t, .begun k (.childless v)) :: σ) s)
    (hseen : ∀ {s₀}, Run τ s₀ → Seen k s₀) (hσ : ∀ t f, (t, .begun k f) ∉ σ) :
    Making k v σ s := by
  refine h.since (motive := fun σ s => (∀ t f, (t, .begun k f) ∉ σ) → Making k v σ s)
    (fun hrun _ hs _ => ?_) (fun hrun hs ih hσ => ?_) (fun _ ih hσ => ?_) hσ
  · obtain ⟨hnone, hexp, d, hwork, hopening⟩ := hs.of_begun
    cases hseen hrun with
    | about h => cases hnone.symm.trans h
    | unexpected hx =>
      cases hopening with
      | childless _ hc => exact .asking hwork hc (hexp ▸ hx)
  · refine (ih fun t f hm => hσ t f (List.mem_append_left _ hm)).step hrun.sound hs fun f hf => ?_
    subst hf
    exact hσ _ f (List.mem_append_right _ (.head _))
  · cases ih hσ with
    | asking h hc hx => exact .asking h hc hx
    | creating h hc => exact .creating h hc
    | created hmem hcreates => exact .created hmem hcreates
    | idle h => exact .idle h

/-- When work on a key has found a child of the current generation, and none was created for the key
since, work on the key that finds none creates one, if it ends well. -/
theorem healed_once_seen {τ₁ τ₂ τ₃ : History} {t₁ t₂ t₃ : Instant} {v' : String}
    (h : Run (τ₁ ++ (t₁, .begun k (.present v')) :: τ₂ ++ (t₂, .begun k (.childless v)) :: τ₃ ++
      [(t₃, .ended k (.ok ()))]) s)
    (hτ₂ : ∀ t w, (t, .answered k (.expect k w) ()) ∉ τ₂) (hτ₃ : ∀ t f, (t, .begun k f) ∉ τ₃) :
    ∃ t e, (t, e) ∈ τ₃ ∧ e.Creates k v := by
  obtain ⟨s₃, s₄, hrun, rfl, hs⟩ := h.before
  cases hs with
  | finish hdone =>
    cases hrun.making (fun hrun => hrun.seen hτ₂) hτ₃ with
    | asking hwork => cases hdone.symm.trans hwork
    | creating hwork hc =>
      cases hdone.symm.trans hwork
      cases hc
    | created hmem hcreates => exact ⟨_, _, hmem, hcreates⟩
    | idle hwork => cases hdone.symm.trans hwork

/-- Work from its beginning to its end, with answers at one instant: what is seen of the answers,
how the work ends and what is expected then. -/
inductive Held (now : Instant) (k : Key) :
    Expectations → Rest → List Deed → Except Failure Unit → Expectations → Prop
  | done {x : Expectations} {r : Except Failure Unit} : Held now k x (.done r) [] r x
  | ask {x x' x'' : Expectations} (q : Query) (a : q.Answer) {next : q.Answer → Rest}
      {ds : List Deed} {r : Except Failure Unit} :
      Answers now x q a x' → Held now k x' (next a) ds r x'' →
      Held now k x (.ask q next) (.answered k q a :: ds) r x''

/-- Work that is under way can go on to its end. -/
theorem Run.held {x x' : Expectations} {d : Rest} {ds : List Deed} {r : Except Failure Unit}
    (h : Run τ s) (hd : Held now k x d ds r x') (hnow : s.now = now) (hx : s.expectations = x)
    (hwork : s.work.get? k = some d) :
    ∃ s', Run (τ ++ ds.map (fun e => (now, e)) ++ [(now, .ended k r)]) s' ∧ s'.now = now ∧
      s'.expectations = x' ∧ s'.work.get? k = none := by
  induction hd generalizing τ s with
  | done =>
    subst hnow hx
    rw [List.map_nil, List.append_nil]
    exact ⟨_, h.next (.finish hwork), rfl, rfl, Table.get?_erase_self ..⟩
  | ask q a ha _ ih =>
    subst hnow hx
    have hnext := h.next (.answer hwork ha)
    obtain ⟨s', hs', hrest⟩ := ih hnext rfl rfl (Table.get?_insert_self ..)
    rw [← List.append_cons] at hs'
    exact ⟨s', hs', hrest⟩

/-- Work on a key can begin when none is under way, and go on to its end. -/
theorem Run.whole {x : Expectations} {ds : List Deed} {r : Except Failure Unit} {f : Finding}
    (h : Run τ s) (c : Context) (hf : found c k = f) (hidle : s.work.get? k = none)
    (hd : Held s.now k s.expectations (dialogue c k) ds r x) :
    ∃ s', Run (τ ++ (s.now, .begun k f) :: ds.map (fun e => (s.now, e)) ++
        [(s.now, .ended k r)]) s' ∧
      s'.now = s.now ∧ s'.expectations = x ∧ s'.work.get? k = none := by
  subst hf
  have hbegin := h.next (.begin c hidle)
  obtain ⟨s', hs', hrest⟩ := hbegin.held hd rfl rfl (Table.get?_insert_self ..)
  rw [← List.append_cons] at hs'
  exact ⟨s', hs', hrest⟩

/-! ## A child that comes and goes -/

/-- A warm image whose image is pinned already. -/
def sample : WarmImage where
  metadata :=
    { name := some "a", ns := some "ns", uid := some "u", resourceVersion := some "1" }
  image := ""

/-- The child of the warm image, as work creates it. -/
def sampleChild : DaemonSet :=
  .ofWarmImage sample "" "sleeper"
    { apiVersion := ObjectType.warmImage.kind.apiVersion
      kind := "WarmImage"
      name := "a"
      uid := "u"
      controller := some true
      blockOwnerDeletion := some true }

/-- The child as the cluster tells of it. -/
def sampleShown : DaemonSet :=
  { sampleChild with metadata := { sampleChild.metadata with name := some "a0" } }

/-- The warm image, and a store of daemon sets. -/
def sampleContext (daemonSets : Store DaemonSet) : Context :=
  ⟨.forController, { items := .ofList [("ns/a", sample)] }, daemonSets, "sleeper"⟩

/-- The warm image as events refer to it. -/
def sampleReference : ObjectReference :=
  ⟨some "mattmoor.io/v2", some "WarmImage", some "a", some "ns", some "u", some "1"⟩

/-- Work that finds no child and expects none creates one. -/
theorem held_childless {x x' : Expectations} (h : x.isPending "ns/a" "1" now = (false, x')) :
    Held now "ns/a" x (dialogue (sampleContext {}) "ns/a")
      [.answered "ns/a" (.isPending "ns/a" "1") false,
        .answered "ns/a" (.create "ns" sampleChild) (.ok ()),
        .answered "ns/a" (.expect "ns/a" "1") (),
        .answered "ns/a" (.publish sampleReference .synced) (.ok ())]
      (.ok ()) (x'.expect "ns/a" "1" now) := by
  refine .ask (.isPending "ns/a" "1") false h.symm ?_
  refine .ask (.create "ns" sampleChild) (.ok ()) rfl ?_
  refine .ask (.expect "ns/a" "1") () rfl ?_
  exact .ask (.publish sampleReference .synced) (.ok ()) rfl .done

/-- A child is created, work finds it in the store, it goes from there, and the next work creates
another at once. -/
theorem healed_once_seen_again :
    ∃ (s : State) (τ₁ τ₂ τ₃ : History),
      Run (τ₁ ++ (⟨0⟩, .begun "ns/a" (.present "1")) :: τ₂ ++
        (⟨0⟩, .begun "ns/a" (.childless "1")) :: τ₃ ++ [(⟨0⟩, .ended "ns/a" (.ok ()))]) s ∧
      (⟨0⟩, .answered "ns/a" (.expect "ns/a" "1") ()) ∈ τ₁ ∧
      ∃ t e, (t, e) ∈ τ₃ ∧ e.Creates "ns/a" "1" := by
  obtain ⟨s₁, h₁, hnow₁, hx₁, hidle₁⟩ :=
    (Run.start ⟨0⟩).whole (sampleContext {}) (f := .childless "1") rfl rfl (held_childless rfl)
  have hfind : Held s₁.now "ns/a" s₁.expectations
      (dialogue (sampleContext (({} : Store DaemonSet).upsert sampleShown).1) "ns/a")
      [.answered "ns/a" (.observed "ns/a") (),
        .answered "ns/a" (.publish sampleReference .synced) (.ok ())]
      (.ok ()) (s₁.expectations.observed "ns/a") :=
    .ask (.observed "ns/a") () rfl (.ask (.publish sampleReference .synced) (.ok ()) rfl .done)
  obtain ⟨s₂, h₂, hnow₂, hx₂, hidle₂⟩ := h₁.whole _ (f := .present "1") rfl hidle₁ hfind
  have hnone : s₂.expectations.pending.get? "ns/a" = none := by
    rw [hx₂]
    exact Table.get?_erase_self ..
  rw [List.append_assoc, List.cons_append] at h₂
  obtain ⟨s₃, h₃, -⟩ := h₂.whole (sampleContext {}) (f := .childless "1") rfl hidle₂
    (held_childless (Expectations.isPending_of_none hnone))
  rw [hnow₂, hnow₁] at h₃
  exact ⟨s₃, _, _, _, h₃, by simp, healed_once_seen h₃ (by simp) (by simp)⟩

/-- A child is created, comes to the store and is gone from there before work on the key begins. The
work that begins then finds no child and ends well, and creates none. -/
theorem unhealed_if_unseen :
    let shown : Store DaemonSet := (({} : Store DaemonSet).upsert sampleShown).1
    let gone : Store DaemonSet := (shown.remove sampleShown).1
    found (sampleContext shown) "ns/a" = .present "1" ∧
    ∃ (s : State) (τ₁ τ₂ : History),
      Run (τ₁ ++ (⟨0⟩, .begun "ns/a" (found (sampleContext gone) "ns/a")) :: τ₂ ++
        [(⟨0⟩, .ended "ns/a" (.ok ()))]) s ∧
      (⟨0⟩, .answered "ns/a" (.create "ns" sampleChild) (.ok ())) ∈ τ₁ ∧
      found (sampleContext gone) "ns/a" = .childless "1" ∧
      ¬ ∃ t e, (t, e) ∈ τ₂ ∧ e.Creates "ns/a" "1" := by
  intro shown gone
  obtain ⟨s₁, h₁, hnow₁, hx₁, hidle₁⟩ :=
    (Run.start ⟨0⟩).whole (sampleContext {}) (f := .childless "1") rfl rfl (held_childless rfl)
  have hwait : Held s₁.now "ns/a" s₁.expectations (dialogue (sampleContext gone) "ns/a")
      [.answered "ns/a" (.isPending "ns/a" "1") true,
        .answered "ns/a" (.publish sampleReference .synced) (.ok ())]
      (.ok ()) s₁.expectations := by
    refine .ask (.isPending "ns/a" "1") true ?_
      (.ask (.publish sampleReference .synced) (.ok ()) rfl .done)
    rw [hx₁, hnow₁]
    rfl
  obtain ⟨s₂, h₂, -⟩ := h₁.whole (sampleContext gone) rfl hidle₁ hwait
  rw [hnow₁] at h₂
  refine ⟨rfl, s₂, _, _, h₂, by simp, rfl, ?_⟩
  rintro ⟨t, e, he, hcreates⟩
  simp only [List.map_cons, List.map_nil, List.mem_cons, Prod.mk.injEq, List.not_mem_nil,
    or_false] at he
  rcases he with ⟨-, rfl⟩ | ⟨-, rfl⟩ <;> exact hcreates

end

end Prewarm.Reconcile
