import Prewarm.Proofs.Reconcile.Children
import Prewarm.Proofs.Reconcile.Exchanges

/-!
# Work deletes the stale children and no others

Whether there is something to delete is decided with two selectors on the local store, and what is
deleted is what a third one accepts in the cluster. The three divide all labels between them, so
that work on a warm image deletes just its children of other generations, in one request, if the
store has any and nothing has failed before (`cleanup_exact`).
-/

namespace Prewarm.Reconcile

/-- What was asked to be deleted. -/
def deletions (es : List Exchange) : List Query := (es.map Sigma.fst).filter Query.isDeletion

/-- Whether an exchange keeps work from going on to the deletion: it has failed, or there is a child
to make and the scheme does not know who would own it. -/
def Exchange.Hinders (c : Context) (x : Exchange) : Prop :=
  x.failed = true ∧ x.1.isDeletion = false ∨
    (∃ e, c.scheme.kindOf .warmImage = .error e) ∧ ∃ k v, x = ⟨.isPending k v, false⟩

section
variable {c : Context} {k : Key} {wi : WarmImage} {ns name : String} {es es₁ es₂ : List Exchange}
  {r : Except Failure Unit}

/-! ## The steps of work -/

@[simp] theorem deletions_append (es₁ es₂ : List Exchange) :
    deletions (es₁ ++ es₂) = deletions es₁ ++ deletions es₂ := by
  simp [deletions]

theorem deletions_eq_nil (h : ∀ x ∈ es, x.1.isDeletion = false) : deletions es = [] := by
  refine List.filter_eq_nil_iff.2 fun q hq => ?_
  obtain ⟨x, hx, rfl⟩ := List.mem_map.1 hq
  simp [h x hx]

theorem not_hinders {x : Exchange} (hkind : ∀ e, c.scheme.kindOf .warmImage ≠ .error e)
    (hx : x.failed = false) : ¬ x.Hinders c := by
  rintro (⟨h, -⟩ | ⟨⟨e, h⟩, -⟩)
  · rw [hx] at h
    cases h
  · exact hkind e h

/-- Nothing is deleted to make a child. -/
theorem isDeletion_of_createChild (h : (createChild c wi ns).run.Transcript es r) :
    ∀ x ∈ es, x.1.isDeletion = false := by
  obtain ⟨es₁, p, hpin, hcase⟩ := createChild_transcript h
  have hread := fun x hx => Query.isDeletion_of_isRead ((pin_transcript hpin).1 x hx)
  obtain ⟨e, -, rfl, -⟩ | ⟨image, e, -, -, rfl, -⟩ | ⟨image, owner, a, -, -, rfl, -⟩ := hcase
  · exact hread
  · exact hread
  · exact List.forall_mem_append.2 ⟨hread, by simp [Query.isDeletion]⟩

/-- If a child could be made, nothing has failed, and the scheme knows who owns it. -/
theorem not_failed_of_createChild (h : (createChild c wi ns).run.Transcript es (.ok ())) :
    (∀ x ∈ es, x.failed = false) ∧ ∀ e, c.scheme.kindOf .warmImage ≠ .error e := by
  obtain ⟨es₁, p, hpin, hcase⟩ := createChild_transcript h
  obtain ⟨e, -, -, hr⟩ | ⟨image, e, -, -, -, hr⟩ | ⟨image, owner, a, rfl, howner, rfl, hr⟩ := hcase
  · cases hr
  · cases hr
  · constructor
    · refine List.forall_mem_append.2
        ⟨fun x hx => Bool.eq_false_iff.2 (List.any_eq_false.1 (pin_transcript hpin).2 x hx), ?_⟩
      cases a with
      | error e => cases hr
      | ok u => exact List.forall_mem_singleton.2 rfl
    · intro e hkind
      rw [Scheme.controllerReference, hkind] at howner
      cases howner

/-- If no child could be made, something has failed, or the scheme does not know who would own
it. -/
theorem failed_of_createChild {e : Failure}
    (h : (createChild c wi ns).run.Transcript es (.error e)) :
    (∃ x ∈ es, x.failed = true) ∨ ∃ e, c.scheme.kindOf .warmImage = .error e := by
  obtain ⟨es₁, p, hpin, hcase⟩ := createChild_transcript h
  obtain ⟨e, rfl, rfl, -⟩ | ⟨image, e, -, hkind, -, -⟩ | ⟨image, owner, a, rfl, howner, rfl, hr⟩ :=
    hcase
  · exact .inl (List.any_eq_true.1 (pin_transcript hpin).2)
  · exact .inr ⟨e, hkind⟩
  · cases a with
    | error e => exact .inl ⟨_, List.mem_append_right _ (List.mem_singleton_self _), rfl⟩
    | ok u => cases hr

/-- At the end of work, the stale children are deleted if there are any. -/
theorem Settling.deletions_eq (h : Settling c wi ns es r) :
    deletions es = if (childrenOf c wi ns).2.isEmpty then [] else [cleanup wi ns] := by
  have hpublish : ∀ {es r}, (publishSynced c wi).run.Transcript es r → deletions es = [] := by
    intro es r h
    obtain ⟨e, -, rfl, -⟩ | ⟨about, a, -, rfl, -⟩ := publishSynced_transcript h
    · rfl
    · rfl
  cases h with
  | clean hempty h => rw [if_pos hempty, hpublish h]
  | failed e hsome =>
    rw [hsome]
    rfl
  | swept hsome h =>
    rw [hsome]
    exact congrArg (cleanup wi ns :: ·) (hpublish h)

/-- At the end of work nothing keeps it from the deletion any more. -/
theorem Settling.not_hinders (h : Settling c wi ns es r) (x : Exchange) (hx : x ∈ es) :
    ¬ x.Hinders c := by
  have hpublish : ∀ {es r}, (publishSynced c wi).run.Transcript es r →
      ∀ x : Exchange, x ∈ es → ¬ x.Hinders c := by
    intro es r h
    obtain ⟨e, -, rfl, -⟩ | ⟨about, a, -, rfl, -⟩ := publishSynced_transcript h
    · exact List.forall_mem_nil _
    · exact List.forall_mem_singleton.2 (by rintro (⟨h, -⟩ | ⟨-, k, v, h⟩) <;> cases h)
  have hcleanup : ∀ a, ¬ Exchange.Hinders c ⟨cleanup wi ns, a⟩ := by
    rintro a (⟨-, h⟩ | ⟨-, k, v, h⟩) <;> cases h
  cases h with
  | clean _ h => exact hpublish h x hx
  | failed e _ =>
    cases List.mem_singleton.1 hx
    exact hcleanup _
  | swept _ h =>
    rcases List.mem_cons.1 hx with rfl | hx
    · exact hcleanup _
    · exact hpublish h x hx

/-! ## The whole of work -/

/-- Work deletes the stale children if there are any and nothing keeps it from that. -/
theorem Conversation.deletions_eq (h : Conversation c k wi ns es r) :
    (∃ x ∈ es, x.Hinders c) ∧ deletions es = [] ∨
      (∀ x ∈ es, ¬ x.Hinders c) ∧
        deletions es = if (childrenOf c wi ns).2.isEmpty then [] else [cleanup wi ns] := by
  cases h with
  | present _ hend =>
    refine .inr ⟨List.forall_mem_cons.2 ⟨?_, hend.not_hinders⟩, hend.deletions_eq⟩
    rintro (⟨h, -⟩ | ⟨-, k, v, h⟩) <;> cases h
  | expected _ hend =>
    refine .inr ⟨List.forall_mem_cons.2 ⟨?_, hend.not_hinders⟩, hend.deletions_eq⟩
    rintro (⟨h, -⟩ | ⟨-, k, v, h⟩) <;> cases h
  | failed _ hcreate =>
    have hnone := isDeletion_of_createChild hcreate
    refine .inl ⟨?_, deletions_eq_nil (List.forall_mem_cons.2 ⟨rfl, hnone⟩)⟩
    rcases failed_of_createChild hcreate with ⟨x, hx, hfailed⟩ | hkind
    · exact ⟨x, List.mem_cons_of_mem _ hx, .inl ⟨hfailed, hnone x hx⟩⟩
    · exact ⟨_, List.mem_cons_self .., .inr ⟨hkind, k, wi.metadata.version, rfl⟩⟩
  | @made es₁ es₂ _ _ hcreate hend =>
    obtain ⟨hfailed, hkind⟩ := not_failed_of_createChild hcreate
    have hmaking : ∀ x ∈ es₁, ¬ x.Hinders c := fun x hx => not_hinders hkind (hfailed x hx)
    have hsettling : ∀ x ∈ (⟨.expect k wi.metadata.version, ()⟩ :: es₂ : List Exchange),
        ¬ x.Hinders c :=
      List.forall_mem_cons.2 ⟨not_hinders hkind rfl, hend.not_hinders⟩
    refine .inr ⟨List.forall_mem_cons.2
      ⟨not_hinders hkind rfl, List.forall_mem_append.2 ⟨hmaking, hsettling⟩⟩, ?_⟩
    refine (deletions_append _ _).trans ?_
    rw [deletions_eq_nil (isDeletion_of_createChild hcreate), List.nil_append]
    exact hend.deletions_eq

/-- Answers that grant every request, where no pull secret is there and every image has one
digest. -/
def granted : (q : Query) → q.Answer
  | .isPending .. => false
  | .expect .. | .observed .. => ()
  | .secret .. => .ok none
  | .digest .. => .ok "sha256:1"
  | .create .. | .deleteCollection .. | .publish .. => .ok ()

/-- Each label set that the selector of a warm image's children accepts is accepted by just one of
the selectors of the current and of the stale ones. Work on the key of a warm image asks for at most
one deletion: in the foreground, of all that the selector of the stale children accepts in the
namespace. If nothing has kept it from that before, it asks for it just if the store holds a stale
child. The selector accepts every stale child, but no child of the current generation, such as one
that the same work creates, and none of another warm image. -/
theorem cleanup_exact (hk : k.split = .ok (ns, name)) (hwi : c.warmImages.get? ns name = some wi)
    (h : (dialogue c k).Transcript es r) :
    (∀ (w : WarmImage) (labels : Labels),
      (Generation.ownedSelector w).accepts labels =
        ((Generation.currentSelector w).accepts labels ^^
          (Generation.staleSelector w).accepts labels)) ∧
    (deletions es = [] ∨
      deletions es = [.deleteCollection ns (Generation.staleSelector wi) .foreground]) ∧
    ((∃ x ∈ es, x.Hinders c) → deletions es = []) ∧
    ((∀ x ∈ es, ¬ x.Hinders c) →
      (deletions es ≠ [] ↔ ∃ d ∈ c.daemonSets.items.values, isStale wi ns d = true)) ∧
    (∀ d, isStale wi ns d = true →
      (Generation.staleSelector wi).accepts d.metadata.labelMap = true) ∧
    (∀ labels, (Generation.currentSelector wi).accepts labels = true →
      (Generation.staleSelector wi).accepts labels = false) ∧
    (∀ ns' d a, ⟨.create ns' d, a⟩ ∈ es →
      ns' = ns ∧ (Generation.currentSelector wi).accepts d.metadata.labelMap = true) ∧
    ∀ (labels : Labels) u, labels.get? Generation.controllerLabel = some u →
      u ≠ wi.metadata.identity → (Generation.staleSelector wi).accepts labels = false := by
  have hconv := dialogue_transcript hk hwi h
  have hstale : (childrenOf c wi ns).2.isEmpty = false ↔
      ∃ d ∈ c.daemonSets.items.values, isStale wi ns d = true := by
    rw [List.isEmpty_eq_false_iff_exists_mem]
    exact exists_congr fun d => mem_staleOf
  have hselected : ∀ d, isStale wi ns d = true →
      (Generation.staleSelector wi).accepts d.metadata.labelMap = true := fun d hd => by
    rw [isStale_eq, Bool.and_eq_true] at hd
    exact hd.2
  have hchild : ∀ ns' d a, ⟨.create ns' d, a⟩ ∈ es →
      ns' = ns ∧ (Generation.currentSelector wi).accepts d.metadata.labelMap = true := by
    intro ns' d a hx
    obtain ⟨rfl, image, owner, rfl⟩ := hconv.created hx
    exact ⟨rfl, accepts_current_labels wi⟩
  have hcurrent : ∀ labels, (Generation.currentSelector wi).accepts labels = true →
      (Generation.staleSelector wi).accepts labels = false :=
    fun _ => not_accepts_stale_of_current
  have hother : ∀ (labels : Labels) u, labels.get? Generation.controllerLabel = some u →
      u ≠ wi.metadata.identity → (Generation.staleSelector wi).accepts labels = false :=
    fun _ _ => not_accepts_stale_of_other
  rcases hconv.deletions_eq with ⟨⟨x, hx, hinders⟩, hnone⟩ | ⟨hfree, heq⟩
  · exact ⟨accepts_owned_eq, .inl hnone, fun _ => hnone, fun hfree => absurd hinders (hfree x hx),
      hselected, hcurrent, hchild, hother⟩
  · refine ⟨accepts_owned_eq, ?_, fun ⟨x, hx, hinders⟩ => absurd hinders (hfree x hx), fun _ => ?_,
      hselected, hcurrent, hchild, hother⟩
    · rw [heq]
      split
      · exact .inl rfl
      · exact .inr rfl
    · rw [heq, ← hstale]
      cases (childrenOf c wi ns).2.isEmpty <;> simp

/-- A warm image whose one child is of an older generation: a new child is made, and the old one is
deleted. -/
theorem cleanup_exact_renewed :
    let wi : WarmImage :=
      { metadata :=
          { name := some "a", ns := some "ns", uid := some "u", resourceVersion := some "2" }
        image := "busybox@sha256:0" }
    let old : DaemonSet :=
      { metadata :=
          { name := some "a0"
            ns := some "ns"
            labels := some (.ofList [("controller", "u"), ("version", "1")]) } }
    let c : Context :=
      ⟨.forController, { items := .ofList [("ns/a", wi)] }, { items := .ofList [("ns/a0", old)] },
        "sleeper"⟩
    ∃ es r, (dialogue c "ns/a").Transcript es r ∧
      deletions es = [.deleteCollection "ns" (Generation.staleSelector wi) .foreground] := by
  intro wi old c
  have h := (dialogue c "ns/a").transcript_record granted
  refine ⟨_, _, h, ?_⟩
  have hk : Key.split "ns/a" = .ok ("ns", "a") := rfl
  obtain ⟨-, hone, -, hfree, -⟩ := cleanup_exact hk rfl h
  have hall : ((dialogue c "ns/a").record granted).1.all (fun x => !Exchange.failed x) = true := by
    decide +kernel
  have hnot : ∀ x ∈ ((dialogue c "ns/a").record granted).1, ¬ Exchange.Hinders c x :=
    fun x hx => not_hinders nofun (by simpa using List.all_eq_true.1 hall x hx)
  exact hone.resolve_left ((hfree hnot).2 ⟨old, List.mem_singleton_self old, by decide⟩)

end

end Prewarm.Reconcile
