import Prewarm.Proofs.Reconcile.Children
import Prewarm.Proofs.Reconcile.Fleet

/-!
# Work on a key converges

If the store of daemon sets mirrors the cluster, no child is expected and none of those who are
asked fails, work on the key of a warm image leaves its namespace with a child of the current
generation and without stale ones, and touches nothing else (`work_converges`). It then asks for no
creation and no deletion any more.

Children are described by their labels (`isCurrent`, `isStale`), and the work finds just these in a
store that mirrors the cluster (`mem_current`, `mem_stale`).
-/

namespace Prewarm.Reconcile

section
variable {c c' : Context} {k : Key} {ns name : String} {wi : WarmImage} {d : DaemonSet}
  {f : Fleet} {s : Scene} {h : Peers}

/-! ## Children of the cluster -/

/-- A store holds the same children as a cluster: daemon sets that no one controls do not matter. -/
def Mirrors (s : Store DaemonSet) (f : Fleet) : Prop :=
  ∀ d : DaemonSet, Controller.childSelector.accepts d.metadata.labelMap →
    (d ∈ s.items.values ↔ d ∈ f.members)

/-- The children that work takes for those of the current generation are those of the cluster, which
the store mirrors. -/
theorem mem_current (hm : Mirrors c.daemonSets f) :
    d ∈ (childrenOf c wi ns).1 ↔ d ∈ f.members ∧ isCurrent wi ns d = true :=
  mem_currentOf.trans <| and_congr_left fun hd =>
    hm d (isChild_of_isOwned (Bool.and_eq_true_iff.1 hd).1)

theorem mem_stale (hm : Mirrors c.daemonSets f) :
    d ∈ (childrenOf c wi ns).2 ↔ d ∈ f.members ∧ isStale wi ns d = true :=
  mem_staleOf.trans <| and_congr_left fun hd =>
    hm d (isChild_of_isOwned (Bool.and_eq_true_iff.1 hd).1)

/-- What is deleted are the stale children. -/
theorem members_deleteStale (f : Fleet) :
    (f.deleteCollection ns (Generation.staleSelector wi)).members =
      f.members.filter fun d => !isStale wi ns d := by
  refine List.filter_congr fun d _ => congrArg Bool.not ?_
  rw [isStale_eq]

/-! ## What work leaves -/

/-- A dialogue with some answers comes to a question. -/
inductive Asks {α : Type} : Talk α → Query → Prop
  | here {q : Query} {next : q.Answer → Talk α} : Asks (.ask q next) q
  | later {q q' : Query} {next : q.Answer → Talk α} (a : q.Answer) :
      Asks (next a) q' → Asks (.ask q next) q'

/-- Whether a question asks for a change of the daemon sets of the cluster. -/
def Query.isChange : Query → Bool
  | .create .. | .deleteCollection .. => true
  | _ => false

/-- A child that is expected no more, or for another version. -/
theorem isPending_eq_false {x : Expectations} {v : String} {now : Instant}
    (hx : ∀ e, x.pending.get? k = some e → e.version = v → e.deadline.nanos ≤ now.nanos) :
    (x.isPending k v now).1 = false := by
  unfold Expectations.isPending
  split
  · next e he =>
    split
    · next hv => exact absurd hv.2 (Nat.not_lt.2 (hx e he hv.1))
    · rfl
  · rfl

/-- The end of work leaves no stale children, if the store has all there are. -/
theorem hold_settle_members {g : GroupVersionKind} (wi : WarmImage) (ns : String)
    (hg : c.scheme.kindOf .warmImage = .ok g)
    (hstale : ∀ d ∈ s.fleet.members, isStale wi ns d = true → d ∈ (childrenOf c wi ns).2) :
    ∃ s', h.hold (settle c wi ns).run s = (.ok (), s') ∧
      s'.fleet.members = s.fleet.members.filter fun d => !isStale wi ns d := by
  obtain ⟨s', hs', hfleet⟩ := Peers.hold_settle (h := h) (s := s) wi ns hg
  refine ⟨s', hs', ?_⟩
  rw [hfleet]
  split
  · next hempty =>
    refine (List.filter_eq_self.2 fun d hd => ?_).symm
    cases hd' : isStale wi ns d with
    | false => rfl
    | true =>
      have hmem := hstale d hd hd'
      rw [List.isEmpty_iff.1 hempty] at hmem
      cases hmem
  · exact members_deleteStale s.fleet

/-- Work on the key of a warm image creates a child of the current generation if there is none, and
then deletes the stale ones. -/
theorem hold_dialogue {g : GroupVersionKind} (hk : k.split = .ok (ns, name))
    (hwi : c.warmImages.get? ns name = some wi) (hg : c.scheme.kindOf .warmImage = .ok g)
    (hm : Mirrors c.daemonSets s.fleet)
    (hx : ∀ x, s.expectations.pending.get? k = some x → x.version = wi.metadata.version →
      x.deadline.nanos ≤ s.now.nanos) :
    ∃ s' new, h.hold (dialogue c k) s = (.ok (), s') ∧
      s'.fleet.members = (new ++ s.fleet.members).filter (fun d => !isStale wi ns d) ∧
      (new = [] ∧ (∃ d ∈ s.fleet.members, isCurrent wi ns d = true) ∨
        (∃ d, new = [d] ∧ isCurrent wi ns d = true) ∧
          ∀ d ∈ s.fleet.members, isCurrent wi ns d = false) := by
  cases hcur : (childrenOf c wi ns).1.isEmpty with
  | false =>
    obtain ⟨d, hd⟩ := List.isEmpty_eq_false_iff_exists_mem.1 hcur
    obtain ⟨s', hs', hmembers⟩ := hold_settle_members (h := h) (s := (h.answer (.observed k) s).2)
      wi ns hg fun d hd hstale => (mem_stale hm).2 ⟨hd, hstale⟩
    rw [dialogue_of_present hk hwi hcur, Peers.hold_ask]
    exact ⟨s', [], hs', hmembers, .inl ⟨rfl, d, (mem_current hm).1 hd⟩⟩
  | true =>
    have hno : ∀ d ∈ s.fleet.members, isCurrent wi ns d = false := by
      intro d hd
      refine Bool.eq_false_iff.2 fun hd' => ?_
      have hmem := (mem_current hm).2 ⟨hd, hd'⟩
      rw [List.isEmpty_iff.1 hcur] at hmem
      cases hmem
    have hpending : (h.answer (.isPending k wi.metadata.version) s).1 = false :=
      isPending_eq_false fun x hget hv => Nat.le_trans (hx x hget hv) (Nat.le_add_right ..)
    rw [dialogue_of_childless hk hwi hcur, Peers.hold_ask, hpending]
    obtain ⟨d, s₂, hcreate, hadded, hns, hlabels⟩ := Peers.hold_createChild (h := h)
      (s := (h.answer (.isPending k wi.metadata.version) s).2) wi ns hg
    have hadded : s₂.fleet.members = d :: s.fleet.members := hadded
    have hd : isCurrent wi ns d = true := isCurrent_of_labels hns hlabels
    -- the new child is none of the stale ones, so that the store shows all of these
    obtain ⟨s', hs', hmembers⟩ := hold_settle_members (h := h)
      (s := (h.answer (.expect k wi.metadata.version) s₂).2) wi ns hg fun x hx hstale => by
        have hx : x ∈ s₂.fleet.members := hx
        rw [hadded] at hx
        rcases List.mem_cons.1 hx with rfl | hx
        · rw [not_isStale_of_isCurrent hd] at hstale
          cases hstale
        · exact (mem_stale hm).2 ⟨hx, hstale⟩
    have hmembers : s'.fleet.members =
        s₂.fleet.members.filter fun d => !isStale wi ns d := hmembers
    refine ⟨s', [d], ?_, by rw [hmembers, hadded]; rfl, .inr ⟨⟨d, rfl, hd⟩, hno⟩⟩
    rw [if_neg Bool.false_ne_true, Peers.hold_bind, hcreate]
    exact hs'

/-- Work on a warm image whose children are all of the current generation asks for no change. -/
theorem not_isChange_of_asks {q : Query} (hk : k.split = .ok (ns, name))
    (hwi : c.warmImages.get? ns name = some wi) (hm : Mirrors c.daemonSets f)
    (hcur : ∃ d ∈ f.members, isCurrent wi ns d = true)
    (hstale : ∀ d ∈ f.members, isStale wi ns d = false) (hq : Asks (dialogue c k) q) :
    q.isChange = false := by
  obtain ⟨d, hd, hdcur⟩ := hcur
  have hcur : (childrenOf c wi ns).1.isEmpty = false :=
    List.isEmpty_eq_false_iff_exists_mem.2 ⟨d, (mem_current hm).2 ⟨hd, hdcur⟩⟩
  have hnone : (childrenOf c wi ns).2.isEmpty = true := by
    refine List.isEmpty_iff.2 (List.eq_nil_iff_forall_not_mem.2 fun x hx => ?_)
    obtain ⟨hx, hxstale⟩ := (mem_stale hm).1 hx
    rw [hstale x hx] at hxstale
    cases hxstale
  rw [dialogue_of_present hk hwi hcur] at hq
  cases hq with
  | here => rfl
  | later a hq =>
    rw [settle_run, if_pos hnone, publishSynced_run] at hq
    split at hq
    · cases hq
    · cases hq with
      | here => rfl
      | later a hq => cases hq

/-- Work on the key of a warm image with those who do not fail, if the store of daemon sets mirrors
the cluster and no child is expected: it goes well, and leaves as many children of the current
generation as there were, but at least one, and no stale ones. All else stays as it is. When a store
mirrors what it has left, it asks for no change any more, whatever the answers. The controller's
scheme has the kind of warm images; without it work could not say who owns the child. -/
theorem work_converges {g : GroupVersionKind} (hk : k.split = .ok (ns, name))
    (hwi : c.warmImages.get? ns name = some wi) (hg : c.scheme.kindOf .warmImage = .ok g)
    (hm : Mirrors c.daemonSets s.fleet)
    (hx : ∀ x, s.expectations.pending.get? k = some x → x.version = wi.metadata.version →
      x.deadline.nanos ≤ s.now.nanos) :
    ∃ s', h.hold (dialogue c k) s = (.ok (), s') ∧
      s'.fleet.members.countP (isCurrent wi ns) =
        max 1 (s.fleet.members.countP (isCurrent wi ns)) ∧
      (∀ d ∈ s'.fleet.members, isStale wi ns d = false) ∧
      (∀ d ∈ s.fleet.members, isStale wi ns d = false → d ∈ s'.fleet.members) ∧
      (∀ d ∈ s'.fleet.members, d ∈ s.fleet.members ∨
        isCurrent wi ns d = true ∧ s.fleet.members.countP (isCurrent wi ns) = 0) ∧
      ∀ c' : Context, c'.warmImages.get? ns name = some wi → Mirrors c'.daemonSets s'.fleet →
        ∀ q, Asks (dialogue c' k) q → q.isChange = false := by
  obtain ⟨s', new, hs', hmembers, hnew⟩ := hold_dialogue (h := h) hk hwi hg hm hx
  have hmem : ∀ d, d ∈ s'.fleet.members ↔
      (d ∈ new ∨ d ∈ s.fleet.members) ∧ isStale wi ns d = false := fun d => by
    rw [hmembers, List.mem_filter, List.mem_append, Bool.not_eq_true']
  have hcount : s'.fleet.members.countP (isCurrent wi ns) =
      new.countP (isCurrent wi ns) + s.fleet.members.countP (isCurrent wi ns) := by
    rw [hmembers, List.countP_filter, ← List.countP_append]
    refine List.countP_congr fun d _ => ?_
    simp +contextual [not_isStale_of_isCurrent]
  have hone : s'.fleet.members.countP (isCurrent wi ns) =
      max 1 (s.fleet.members.countP (isCurrent wi ns)) := by
    rw [hcount]
    rcases hnew with ⟨rfl, hsome⟩ | ⟨⟨d, rfl, hd⟩, hno⟩
    · have hpos := List.countP_pos_iff.2 hsome
      simp only [List.countP_nil]
      omega
    · have hzero : s.fleet.members.countP (isCurrent wi ns) = 0 :=
        List.countP_eq_zero.2 fun d hd => Bool.eq_false_iff.1 (hno d hd)
      simp [hzero, hd]
  have hstale : ∀ d ∈ s'.fleet.members, isStale wi ns d = false := fun d hd => ((hmem d).1 hd).2
  refine ⟨s', hs', hone, hstale, fun d hd hd' => (hmem d).2 ⟨.inr hd, hd'⟩, fun d hd => ?_,
    fun c' hwi' hm' q hq => ?_⟩
  · rcases ((hmem d).1 hd).1 with hd | hd
    · rcases hnew with ⟨rfl, -⟩ | ⟨⟨x, rfl, hx⟩, hno⟩
      · cases hd
      · cases List.mem_singleton.1 hd
        exact .inr ⟨hx, List.countP_eq_zero.2 fun d hd => Bool.eq_false_iff.1 (hno d hd)⟩
    · exact .inl hd
  · have hcur : ∃ d ∈ s'.fleet.members, isCurrent wi ns d = true :=
      List.countP_pos_iff.1 (by omega)
    exact not_isChange_of_asks hk hwi' hm' hcur hstale hq

/-- A warm image with one child, of an older generation, and a daemon set of someone else. -/
theorem work_converges_renewed :
    let wi : WarmImage :=
      { metadata :=
          { name := some "a", ns := some "ns", uid := some "u", resourceVersion := some "2" }
        image := "busybox" }
    let old : DaemonSet :=
      { metadata :=
          { name := some "a0"
            ns := some "ns"
            labels := some (.ofList [("controller", "u"), ("version", "1")]) } }
    let other : DaemonSet := { metadata := { name := some "b0", ns := some "ns" } }
    let c : Context :=
      ⟨.forController, { items := .ofList [("ns/a", wi)] }, { items := .ofList [("ns/a0", old)] },
        "sleeper"⟩
    let s : Scene := ⟨⟨0⟩, .standard, ⟨[old, other], by decide⟩⟩
    Mirrors c.daemonSets s.fleet ∧
    ∃ s', Peers.plain.hold (dialogue c "ns/a") s = (.ok (), s') ∧
      s'.fleet.members.countP (isCurrent wi "ns") = 1 ∧
      (∀ d ∈ s'.fleet.members, isStale wi "ns" d = false) ∧ other ∈ s'.fleet.members := by
  intro wi old other c s
  have hm : Mirrors c.daemonSets s.fleet := by
    intro d hd
    have hvalues : c.daemonSets.items.values = [old] := rfl
    have hother : d ≠ other := by
      rintro rfl
      cases hd
    simp [hvalues, s, hother]
  have hk : Key.split "ns/a" = .ok ("ns", "a") := rfl
  have hwi : c.warmImages.get? "ns" "a" = some wi := rfl
  obtain ⟨s', hs', hcount, hstale, hkept, -⟩ := work_converges (h := .plain) hk hwi rfl hm nofun
  refine ⟨hm, s', hs', ?_, hstale, hkept other (by simp [s]) (by decide)⟩
  rw [hcount]
  decide

end

end Prewarm.Reconcile
