import Prewarm.Proofs.Reconcile.Exchanges
import Prewarm.Proofs.Reconcile.Run

/-!
# What work on a warm image does

What was created, deleted and told in work on a warm image can be read off what was said in it, if
the scheme knows the kind of warm images and the secrets and the registry give the same `Replies`
all the time. Then the child is known beforehand (`Replies.child`). Each step of the work does what
it has to do, or it fails and does nothing (`createChild_effects`, `Settling.effects`).
-/

namespace Prewarm.Reconcile

/-! ## Replies -/

/-- What the secrets hold, and the digests that a registry has for tags. -/
structure Replies where
  secret : String → String → Option Secret
  digest : TagReference → Logins → String

namespace Replies

/-- The replies as those who are asked when an image is pinned. -/
def sources (R : Replies) : PinSources Id where
  secret ns name := .ok (R.secret ns name)
  digest t logins := .ok (R.digest t logins)

/-- Whether an answer is the reply to its question, unless it is a failure. -/
def Gives (R : Replies) : Exchange → Prop
  | ⟨.secret ns name, .ok s⟩ => s = R.secret ns name
  | ⟨.digest t logins, .ok d⟩ => d = R.digest t logins
  | _ => True

/-- The child that is made of a warm image. There is none if the scheme does not know its owner. -/
def child (R : Replies) (c : Context) (wi : WarmImage) (ns : String) : List (String × DaemonSet) :=
  match R.sources.pin ns wi.image wi.pullSecret.toList,
    c.scheme.controllerReference .warmImage wi.metadata with
  | .ok image, .ok owner => [(ns, .ofWarmImage wi image c.sleeperImage owner)]
  | _, _ => []

variable {R : Replies} {ns image image' : String} {es : List Exchange}

/-- The logins are those in the replies, if reading them goes well. -/
theorem addLogins_eq {ls ls' : Logins} {names : List String}
    (h : (Reconcile.sources.addLogins ns ls names).Transcript es (.ok ls'))
    (hR : ∀ x ∈ es, R.Gives x) : R.sources.addLogins ns ls names = .ok ls' := by
  induction names generalizing ls es with
  | nil =>
    obtain ⟨rfl, hls⟩ := Dialogue.transcript_done_iff.1 h
    exact hls.symm
  | cons name names ih =>
    obtain ⟨a, es', rfl, hrest⟩ := Dialogue.transcript_ask_iff.1 h
    obtain ⟨hgives, hrestR⟩ := List.forall_mem_cons.1 hR
    unfold PinSources.addLogins
    rcases a with e | _ | s
    · nomatch (Dialogue.transcript_done_iff.1 hrest).2
    · have hnone : R.sources.secret ns name = .ok none := congrArg Except.ok hgives.symm
      rw [hnone]
      exact ih hrest hrestR
    · have hsome : R.sources.secret ns name = .ok (some s) := congrArg Except.ok hgives.symm
      rw [hsome]
      exact ih hrest hrestR

/-- An image is pinned as the replies say, if that goes well. -/
theorem pin_eq {secrets : List String}
    (h : (Reconcile.sources.pin ns image secrets).Transcript es (.ok image'))
    (hR : ∀ x ∈ es, R.Gives x) : R.sources.pin ns image secrets = .ok image' := by
  unfold PinSources.pin at h ⊢
  split at h
  · obtain ⟨rfl, himage⟩ := Dialogue.transcript_done_iff.1 h
    exact himage.symm
  · obtain ⟨es₁, r, es₂, rfl, hlogins, hrest⟩ := Dialogue.transcript_bind_iff.1 h
    obtain ⟨hR₁, hR₂⟩ := List.forall_mem_append.1 hR
    cases r with
    | error e => nomatch (Dialogue.transcript_done_iff.1 hrest).2
    | ok ls =>
      obtain ⟨a, es', rfl, hend⟩ := Dialogue.transcript_ask_iff.1 hrest
      obtain ⟨rfl, himage⟩ := Dialogue.transcript_done_iff.1 hend
      have hdigest : R.Gives ⟨.digest _ ls, a⟩ := (List.forall_mem_cons.1 hR₂).1
      cases a with
      | error e => cases himage
      | ok digest =>
        rw [addLogins_eq hlogins hR₁]
        cases hdigest
        exact himage.symm

end Replies

/-! ## What an attempt does -/

/-- The child that was created, and its namespace. -/
def Exchange.created? : Exchange → Option (String × DaemonSet)
  | ⟨.create ns d, .ok ()⟩ => some (ns, d)
  | _ => none

/-- What was deleted: the namespace, the selector, and how the children of the deleted go. -/
def Exchange.deleted? : Exchange → Option (String × Selector × Propagation)
  | ⟨.deleteCollection ns sel p, .ok ()⟩ => some (ns, sel, p)
  | _ => none

/-- The event that should have been taken down, whether it was or not. -/
def Exchange.published? : Exchange → Option (ObjectReference × Event)
  | ⟨.publish about e, _⟩ => some (about, e)
  | _ => none

/-- The children that were created. -/
def created (es : List Exchange) : List (String × DaemonSet) := es.filterMap Exchange.created?

/-- What was deleted. -/
def deleted (es : List Exchange) : List (String × Selector × Propagation) :=
  es.filterMap Exchange.deleted?

/-- The events that should have been taken down. -/
def published (es : List Exchange) : List (ObjectReference × Event) :=
  es.filterMap Exchange.published?

@[simp] theorem created_append (es₁ es₂ : List Exchange) :
    created (es₁ ++ es₂) = created es₁ ++ created es₂ :=
  List.filterMap_append ..

@[simp] theorem deleted_append (es₁ es₂ : List Exchange) :
    deleted (es₁ ++ es₂) = deleted es₁ ++ deleted es₂ :=
  List.filterMap_append ..

@[simp] theorem published_append (es₁ es₂ : List Exchange) :
    published (es₁ ++ es₂) = published es₁ ++ published es₂ :=
  List.filterMap_append ..

/-- Questions that only read do nothing. -/
theorem of_isRead {es : List Exchange} (h : ∀ x ∈ es, x.1.isRead = true) :
    created es = [] ∧ deleted es = [] ∧ published es = [] ∧ ∀ x ∈ es, x.1.isOutside = true := by
  have hx : ∀ x ∈ es, x.created? = none ∧ x.deleted? = none ∧ x.published? = none ∧
      x.1.isOutside = true := by
    rintro ⟨q, a⟩ hx
    have hq := h _ hx
    cases q with
    | secret | digest => exact ⟨rfl, rfl, rfl, rfl⟩
    | _ => cases hq
  exact ⟨List.filterMap_eq_nil_iff.2 fun x h => (hx x h).1,
    List.filterMap_eq_nil_iff.2 fun x h => (hx x h).2.1,
    List.filterMap_eq_nil_iff.2 fun x h => (hx x h).2.2.1, fun x h => (hx x h).2.2.2⟩

section
variable {c : Context} {R : Replies} {k : Key} {wi : WarmImage} {ns name : String}
  {es : List Exchange} {r : Except Failure Unit} {g : GroupVersionKind}

/-- To make a child, others are asked. It is created once if that goes well, and otherwise it is not
and something has failed. -/
theorem createChild_effects (hg : c.scheme.kindOf .warmImage = .ok g) (hR : ∀ x ∈ es, R.Gives x)
    (h : (createChild c wi ns).run.Transcript es r) :
    (∀ x ∈ es, x.1.isOutside = true) ∧ deleted es = [] ∧ published es = [] ∧
      (r = .ok () ∧ created es = R.child c wi ns ∨
        (∃ e, r = .error e) ∧ created es = [] ∧ ∃ x ∈ es, x.failed = true) := by
  obtain ⟨es₁, p, hpin, hcase⟩ := createChild_transcript h
  obtain ⟨hread, hfailed⟩ := pin_transcript hpin
  obtain ⟨hcreated, hdeleted, hpublished, houtside⟩ := of_isRead hread
  obtain ⟨e, rfl, rfl, rfl⟩ | ⟨image, e, -, hkind, -, -⟩ |
    ⟨image, owner, a, rfl, howner, rfl, rfl⟩ := hcase
  · exact ⟨houtside, hdeleted, hpublished, .inr ⟨⟨_, rfl⟩, hcreated, List.any_eq_true.1 hfailed⟩⟩
  · rw [hg] at hkind
    cases hkind
  · refine ⟨List.forall_mem_append.2 ⟨houtside, List.forall_mem_singleton.2 rfl⟩, ?_, ?_, ?_⟩
    · rw [deleted_append, hdeleted]
      cases a <;> rfl
    · rw [published_append, hpublished]
      rfl
    · cases a with
      | error e =>
        refine .inr ⟨⟨_, rfl⟩, ?_, _, List.mem_append_right _ (List.mem_singleton_self _), rfl⟩
        rw [created_append, hcreated]
        rfl
      | ok u =>
        refine .inl ⟨rfl, ?_⟩
        have hpinned := Replies.pin_eq hpin (List.forall_mem_append.1 hR).1
        rw [created_append, hcreated, Replies.child, hpinned, howner]
        rfl

/-- What is deleted at the end of work that goes well. -/
def cleaned (c : Context) (wi : WarmImage) (ns : String) :
    List (String × Selector × Propagation) :=
  if (childrenOf c wi ns).2.isEmpty then []
  else [(ns, Generation.staleSelector wi, .foreground)]

/-- At the end of work, others are asked and nothing is created. If it goes well, the stale children
are deleted and it is told once that all is well, and otherwise neither is done and something has
failed. -/
theorem Settling.effects (hg : c.scheme.kindOf .warmImage = .ok g) (h : Settling c wi ns es r) :
    (∀ x ∈ es, x.1.isOutside = true) ∧ created es = [] ∧
      (r = .ok () ∧ deleted es = cleaned c wi ns ∧
          (∃ about, c.scheme.objectReference .warmImage wi.metadata = .ok about ∧
            published es = [(about, .synced)]) ∨
        (∃ e, r = .error e) ∧ deleted es = [] ∧ published es = [] ∧ ∃ x ∈ es, x.failed = true) := by
  have hpublish : ∀ {es r}, (publishSynced c wi).run.Transcript es r →
      ∃ about a, c.scheme.objectReference .warmImage wi.metadata = .ok about ∧
        es = [⟨.publish about .synced, a⟩] ∧ r = .ok () := by
    intro es r h
    obtain ⟨e, hkind, -⟩ | h := publishSynced_transcript h
    · rw [hg] at hkind
      cases hkind
    · exact h
  cases h with
  | clean hempty h =>
    obtain ⟨about, a, habout, rfl, rfl⟩ := hpublish h
    refine ⟨List.forall_mem_singleton.2 rfl, rfl, .inl ⟨rfl, ?_, about, habout, rfl⟩⟩
    exact (if_pos hempty).symm
  | failed e _ =>
    exact ⟨List.forall_mem_singleton.2 rfl, rfl,
      .inr ⟨⟨_, rfl⟩, rfl, rfl, _, List.mem_singleton_self _, rfl⟩⟩
  | swept hsome h =>
    obtain ⟨about, a, habout, rfl, rfl⟩ := hpublish h
    refine ⟨by simp [cleanup, Query.isOutside], rfl, .inl ⟨rfl, ?_, about, habout, rfl⟩⟩
    rw [cleaned, hsome]
    rfl

/-- Work on a warm image that goes well deletes the stale children and tells once that all is well.
Otherwise it does neither, and something has failed. -/
theorem Conversation.effects (hg : c.scheme.kindOf .warmImage = .ok g) (hR : ∀ x ∈ es, R.Gives x)
    (h : Conversation c k wi ns es r) :
    r = .ok () ∧ deleted es = cleaned c wi ns ∧
        (∃ about, c.scheme.objectReference .warmImage wi.metadata = .ok about ∧
          published es = [(about, .synced)]) ∨
      (∃ e, r = .error e) ∧ deleted es = [] ∧ published es = [] ∧ ∃ x ∈ es, x.failed = true := by
  cases h with
  | present _ hend | expected _ hend =>
    obtain ⟨-, -, hdone | ⟨hr, hdeleted, hpublished, x, hx, hfailed⟩⟩ := hend.effects hg
    · exact .inl hdone
    · exact .inr ⟨hr, hdeleted, hpublished, x, List.mem_cons_of_mem _ hx, hfailed⟩
  | failed _ hcreate =>
    obtain ⟨-, hdeleted, hpublished, ⟨hr, -⟩ | ⟨hr, -, x, hx, hfailed⟩⟩ :=
      createChild_effects hg (List.forall_mem_cons.1 hR).2 hcreate
    · cases hr
    · exact .inr ⟨hr, hdeleted, hpublished, x, List.mem_cons_of_mem _ hx, hfailed⟩
  | @made es₁ es₂ _ _ hcreate hend =>
    obtain ⟨-, hdeleted, hpublished, -⟩ := createChild_effects hg
      (List.forall_mem_append.1 (List.forall_mem_cons.1 hR).2).1 hcreate
    obtain ⟨-, -, hdone⟩ := hend.effects hg
    have hdel : deleted (⟨.isPending k wi.metadata.version, false⟩ ::
        (es₁ ++ ⟨.expect k wi.metadata.version, ()⟩ :: es₂)) = deleted es₂ := by
      refine (deleted_append _ _).trans ?_
      rw [hdeleted]
      rfl
    have hpub : published (⟨.isPending k wi.metadata.version, false⟩ ::
        (es₁ ++ ⟨.expect k wi.metadata.version, ()⟩ :: es₂)) = published es₂ := by
      refine (published_append _ _).trans ?_
      rw [hpublished]
      rfl
    rw [hdel, hpub]
    obtain hdone | ⟨hr, hdeleted, hpublished, x, hx, hfailed⟩ := hdone
    · exact .inl hdone
    · exact .inr ⟨hr, hdeleted, hpublished, x, List.mem_cons_of_mem _
        (List.mem_append_right _ (List.mem_cons_of_mem _ hx)), hfailed⟩

end

end Prewarm.Reconcile
