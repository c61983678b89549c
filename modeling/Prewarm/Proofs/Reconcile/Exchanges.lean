import Prewarm.Proofs.Reconcile.Course
import Prewarm.Proofs.Transcript

/-!
# What is said in work on a warm image

The transcripts of work on the key of a warm image, step by step: the image is pinned, the child is
created and expected, the stale children are deleted, and it is told that all is well. Each step has
a lemma that says what can be asked in it and when it ends well, and a `Conversation` is put
together of these steps (`dialogue_transcript`).
-/

namespace Prewarm.Reconcile

/-- A question of work on a key, with its answer. -/
abbrev Exchange := (q : Query) × q.Answer

/-- Whether an answer is a failure that ends the work. -/
def Exchange.failed : Exchange → Bool
  | ⟨.secret .., .error _⟩ | ⟨.digest .., .error _⟩ | ⟨.create .., .error _⟩
  | ⟨.deleteCollection .., .error _⟩ => true
  | _ => false

/-- Whether a question only reads what others have. -/
def Query.isRead : Query → Bool
  | .secret .. | .digest .. => true
  | _ => false

/-- Whether a question asks for a deletion. -/
def Query.isDeletion : Query → Bool
  | .deleteCollection .. => true
  | _ => false

theorem Query.isDeletion_of_isRead {q : Query} (h : q.isRead = true) : q.isDeletion = false := by
  cases q with
  | secret | digest => rfl
  | _ => cases h

section
variable {c : Context} {k : Key} {wi : WarmImage} {ns name image : String} {es : List Exchange}
  {r : Except Failure Unit} {current : List DaemonSet}

/-! ## Pinning -/

/-- To read the secrets with logins, secrets are read, and it ends well if no secret has failed. -/
theorem addLogins_transcript {ls : Logins} {names : List String} {r : Except ClusterError Logins}
    (h : (sources.addLogins ns ls names).Transcript es r) :
    (∀ x ∈ es, x.1.isRead = true) ∧ es.any Exchange.failed = !r.isOk := by
  induction names generalizing ls es with
  | nil =>
    obtain ⟨rfl, rfl⟩ := Dialogue.transcript_done_iff.1 h
    exact ⟨by simp, rfl⟩
  | cons name names ih =>
    obtain ⟨a, es', rfl, hrest⟩ := Dialogue.transcript_ask_iff.1 h
    rcases a with e | _ | s
    · obtain ⟨rfl, rfl⟩ := Dialogue.transcript_done_iff.1 hrest
      exact ⟨by simp [Query.isRead], rfl⟩
    · obtain ⟨hread, hok⟩ := ih hrest
      exact ⟨List.forall_mem_cons.2 ⟨rfl, hread⟩, hok⟩
    · obtain ⟨hread, hok⟩ := ih hrest
      exact ⟨List.forall_mem_cons.2 ⟨rfl, hread⟩, hok⟩

/-- To pin an image, secrets are read and the registry is asked, and it ends well if none of these
has failed. -/
theorem pin_transcript {secrets : List String} {p : Except ResolveError String}
    (h : (sources.pin ns image secrets).Transcript es p) :
    (∀ x ∈ es, x.1.isRead = true) ∧ es.any Exchange.failed = !p.isOk := by
  unfold PinSources.pin at h
  split at h
  · obtain ⟨rfl, rfl⟩ := Dialogue.transcript_done_iff.1 h
    exact ⟨by simp, rfl⟩
  · obtain ⟨es₁, r, es₂, rfl, hlogins, hrest⟩ := Dialogue.transcript_bind_iff.1 h
    obtain ⟨hread, hok⟩ := addLogins_transcript hlogins
    cases r with
    | error e =>
      obtain ⟨rfl, rfl⟩ := Dialogue.transcript_done_iff.1 hrest
      rw [List.append_nil]
      exact ⟨hread, hok⟩
    | ok ls =>
      obtain ⟨a, es', rfl, hend⟩ := Dialogue.transcript_ask_iff.1 hrest
      obtain ⟨rfl, rfl⟩ := Dialogue.transcript_done_iff.1 hend
      refine ⟨List.forall_mem_append.2 ⟨hread, by simp [Query.isRead]⟩, ?_⟩
      rw [List.any_append, hok]
      cases a with
      | error e => rfl
      | ok digest => rfl

/-! ## The child -/

/-- A child is made in up to three steps: its image is pinned, its owner is named, and it is
created. -/
theorem createChild_transcript (h : (createChild c wi ns).run.Transcript es r) :
    ∃ es₁ p, (sources.pin ns wi.image wi.pullSecret.toList).Transcript es₁ p ∧
      ((∃ e, p = .error e ∧ es = es₁ ∧ r = .error (.resolve e)) ∨
        (∃ image e, p = .ok image ∧ c.scheme.kindOf .warmImage = .error e ∧ es = es₁ ∧
          r = .error (.scheme e)) ∨
        ∃ image owner a, p = .ok image ∧
          c.scheme.controllerReference .warmImage wi.metadata = .ok owner ∧
          es = es₁ ++ [⟨.create ns (.ofWarmImage wi image c.sleeperImage owner), a⟩] ∧
          r = a.mapError .cluster) := by
  rw [createChild_run] at h
  obtain ⟨es₁, p, es₂, rfl, hpin, hrest⟩ := Dialogue.transcript_bind_iff.1 h
  refine ⟨es₁, p, hpin, ?_⟩
  cases p with
  | error e =>
    obtain ⟨rfl, rfl⟩ := Dialogue.transcript_done_iff.1 hrest
    exact .inl ⟨e, rfl, List.append_nil _, rfl⟩
  | ok image =>
    cases hkind : c.scheme.kindOf .warmImage with
    | error e =>
      simp only [Scheme.controllerReference, hkind] at hrest
      obtain ⟨rfl, rfl⟩ := Dialogue.transcript_done_iff.1 hrest
      exact .inr (.inl ⟨image, e, rfl, rfl, List.append_nil _, rfl⟩)
    | ok g =>
      simp only [Scheme.controllerReference, hkind] at hrest ⊢
      obtain ⟨a, es', rfl, hend⟩ := Dialogue.transcript_ask_iff.1 hrest
      refine .inr (.inr ⟨image, _, a, rfl, rfl, ?_⟩)
      cases a with
      | error e =>
        obtain ⟨rfl, rfl⟩ := Dialogue.transcript_done_iff.1 hend
        exact ⟨rfl, rfl⟩
      | ok u =>
        obtain ⟨rfl, rfl⟩ := Dialogue.transcript_done_iff.1 hend
        exact ⟨rfl, rfl⟩

/-- What is created is the child, in the namespace of its warm image and with the image that was
pinned before. -/
theorem created_of_createChild {ns' : String} {d : DaemonSet} {a : Except ClusterError Unit}
    (h : (createChild c wi ns).run.Transcript es r) (hx : ⟨.create ns' d, a⟩ ∈ es) :
    ns' = ns ∧ ∃ es' image owner, es' ⊆ es ∧
      (sources.pin ns wi.image wi.pullSecret.toList).Transcript es' (.ok image) ∧
      d = .ofWarmImage wi image c.sleeperImage owner := by
  obtain ⟨es₁, p, hpin, hcase⟩ := createChild_transcript h
  have hnot : ⟨.create ns' d, a⟩ ∉ es₁ := fun hx => nomatch (pin_transcript hpin).1 _ hx
  obtain ⟨e, -, rfl, -⟩ | ⟨image, e, -, -, rfl, -⟩ | ⟨image, owner, a', rfl, -, rfl, -⟩ := hcase
  · exact absurd hx hnot
  · exact absurd hx hnot
  · cases List.mem_singleton.1 ((List.mem_append.1 hx).resolve_left hnot)
    exact ⟨rfl, es₁, image, owner, List.subset_append_left _ _, hpin, rfl⟩

/-! ## The end of work -/

/-- That all is well is told once, if the scheme knows what about. -/
theorem publishSynced_transcript (h : (publishSynced c wi).run.Transcript es r) :
    (∃ e, c.scheme.kindOf .warmImage = .error e ∧ es = [] ∧ r = .error (.scheme e)) ∨
      ∃ about a, c.scheme.objectReference .warmImage wi.metadata = .ok about ∧
        es = [⟨.publish about .synced, a⟩] ∧ r = .ok () := by
  rw [publishSynced_run] at h
  cases hkind : c.scheme.kindOf .warmImage with
  | error e =>
    simp only [Scheme.objectReference, hkind] at h
    obtain ⟨rfl, rfl⟩ := Dialogue.transcript_done_iff.1 h
    exact .inl ⟨e, rfl, rfl, rfl⟩
  | ok g =>
    simp only [Scheme.objectReference, hkind] at h ⊢
    obtain ⟨a, es', rfl, hend⟩ := Dialogue.transcript_ask_iff.1 h
    obtain ⟨rfl, rfl⟩ := Dialogue.transcript_done_iff.1 hend
    exact .inr ⟨_, a, rfl, rfl, rfl⟩

/-- The question of work on a warm image that deletes its stale children. -/
def cleanup (wi : WarmImage) (ns : String) : Query :=
  .deleteCollection ns (Generation.staleSelector wi) .foreground

/-- What is said at the end of work on a warm image, and what it comes to. -/
inductive Settling (c : Context) (wi : WarmImage) (ns : String) :
    List Exchange → Except Failure Unit → Prop
  /-- There is nothing to delete. -/
  | clean {es : List Exchange} {r : Except Failure Unit} :
      (childrenOf c wi ns).2.isEmpty = true → (publishSynced c wi).run.Transcript es r →
      Settling c wi ns es r
  | failed (e : ClusterError) :
      (childrenOf c wi ns).2.isEmpty = false →
      Settling c wi ns [⟨cleanup wi ns, .error e⟩] (.error (.cluster e))
  | swept {es : List Exchange} {r : Except Failure Unit} :
      (childrenOf c wi ns).2.isEmpty = false → (publishSynced c wi).run.Transcript es r →
      Settling c wi ns (⟨cleanup wi ns, .ok ()⟩ :: es) r

theorem settle_transcript (h : (settle c wi ns).run.Transcript es r) : Settling c wi ns es r := by
  rw [settle_run] at h
  split at h
  · next hempty => exact .clean hempty h
  · next hsome =>
    have hsome := Bool.eq_false_iff.2 hsome
    obtain ⟨a, es', rfl, hrest⟩ := Dialogue.transcript_ask_iff.1 h
    cases a with
    | error e =>
      obtain ⟨rfl, rfl⟩ := Dialogue.transcript_done_iff.1 hrest
      exact .failed e hsome
    | ok u => exact .swept hsome hrest

/-- Nothing is created at the end of work. -/
theorem Settling.not_created {ns' : String} {d : DaemonSet} {a : Except ClusterError Unit}
    (h : Settling c wi ns es r) : ⟨.create ns' d, a⟩ ∉ es := by
  have hpublish : ∀ {es r}, (publishSynced c wi).run.Transcript es r →
      ⟨.create ns' d, a⟩ ∉ es := by
    intro es r h hx
    obtain ⟨e, -, rfl, -⟩ | ⟨about, a, -, rfl, -⟩ := publishSynced_transcript h
    · cases hx
    · cases List.mem_singleton.1 hx
  intro hx
  cases h with
  | clean _ h => exact hpublish h hx
  | failed e _ => cases List.mem_singleton.1 hx
  | swept _ h => exact hpublish h ((List.mem_cons.1 hx).resolve_left nofun)

/-! ## The whole of work -/

/-- What is said in work on the key of a warm image, and what it comes to. -/
inductive Conversation (c : Context) (k : Key) (wi : WarmImage) (ns : String) :
    List Exchange → Except Failure Unit → Prop
  /-- There is a child of the current generation. -/
  | present {es : List Exchange} {r : Except Failure Unit} :
      (childrenOf c wi ns).1.isEmpty = false → Settling c wi ns es r →
      Conversation c k wi ns (⟨.observed k, ()⟩ :: es) r
  /-- There is none, but it is expected. -/
  | expected {es : List Exchange} {r : Except Failure Unit} :
      (childrenOf c wi ns).1.isEmpty = true → Settling c wi ns es r →
      Conversation c k wi ns (⟨.isPending k wi.metadata.version, true⟩ :: es) r
  /-- There is none, and to make one has failed. -/
  | failed {es : List Exchange} {e : Failure} :
      (childrenOf c wi ns).1.isEmpty = true →
      (createChild c wi ns).run.Transcript es (.error e) →
      Conversation c k wi ns (⟨.isPending k wi.metadata.version, false⟩ :: es) (.error e)
  /-- There was none, and one was made. -/
  | made {es₁ es₂ : List Exchange} {r : Except Failure Unit} :
      (childrenOf c wi ns).1.isEmpty = true → (createChild c wi ns).run.Transcript es₁ (.ok ()) →
      Settling c wi ns es₂ r →
      Conversation c k wi ns
        (⟨.isPending k wi.metadata.version, false⟩ ::
          (es₁ ++ ⟨.expect k wi.metadata.version, ()⟩ :: es₂)) r

theorem dialogue_transcript (hk : k.split = .ok (ns, name))
    (hwi : c.warmImages.get? ns name = some wi) (h : (dialogue c k).Transcript es r) :
    Conversation c k wi ns es r := by
  cases hcur : (childrenOf c wi ns).1.isEmpty with
  | false =>
    rw [dialogue_of_present hk hwi hcur] at h
    obtain ⟨a, es', rfl, hrest⟩ := Dialogue.transcript_ask_iff.1 h
    exact .present hcur (settle_transcript hrest)
  | true =>
    rw [dialogue_of_childless hk hwi hcur] at h
    obtain ⟨b, es', rfl, hrest⟩ := Dialogue.transcript_ask_iff.1 h
    cases b with
    | true => exact .expected hcur (settle_transcript hrest)
    | false =>
      obtain ⟨es₁, r₁, es₂, rfl, hcreate, hrest⟩ := Dialogue.transcript_bind_iff.1 hrest
      cases r₁ with
      | error e =>
        obtain ⟨rfl, rfl⟩ := Dialogue.transcript_done_iff.1 hrest
        rw [List.append_nil]
        exact .failed hcur hcreate
      | ok u =>
        obtain ⟨u, es₃, rfl, hend⟩ := Dialogue.transcript_ask_iff.1 hrest
        exact .made hcur hcreate (settle_transcript hend)

/-- What work creates is the child of the warm image, in its namespace and with the image that was
pinned before. -/
theorem Conversation.created_pinned {ns' : String} {d : DaemonSet} {a : Except ClusterError Unit}
    (h : Conversation c k wi ns es r) (hx : ⟨.create ns' d, a⟩ ∈ es) :
    ns' = ns ∧ ∃ es' image owner, es' ⊆ es ∧
      (sources.pin ns wi.image wi.pullSecret.toList).Transcript es' (.ok image) ∧
      d = .ofWarmImage wi image c.sleeperImage owner := by
  cases h with
  | present _ hend | expected _ hend =>
    exact absurd ((List.mem_cons.1 hx).resolve_left nofun) hend.not_created
  | failed _ hcreate =>
    obtain ⟨hns, es', image, owner, hsub, hpinned⟩ :=
      created_of_createChild hcreate ((List.mem_cons.1 hx).resolve_left nofun)
    exact ⟨hns, es', image, owner, List.subset_cons_of_subset _ hsub, hpinned⟩
  | made _ hcreate hend =>
    rcases List.mem_append.1 ((List.mem_cons.1 hx).resolve_left nofun) with hx | hx
    · obtain ⟨hns, es', image, owner, hsub, hpinned⟩ := created_of_createChild hcreate hx
      exact ⟨hns, es', image, owner,
        List.subset_cons_of_subset _ (List.subset_append_of_subset_left _ hsub), hpinned⟩
    · exact absurd ((List.mem_cons.1 hx).resolve_left nofun) hend.not_created

theorem Conversation.created {ns' : String} {d : DaemonSet} {a : Except ClusterError Unit}
    (h : Conversation c k wi ns es r) (hx : ⟨.create ns' d, a⟩ ∈ es) :
    ns' = ns ∧ ∃ image owner, d = .ofWarmImage wi image c.sleeperImage owner := by
  obtain ⟨hns, -, image, owner, -, -, hd⟩ := h.created_pinned hx
  exact ⟨hns, image, owner, hd⟩

end

end Prewarm.Reconcile
