import Prewarm.Proofs.Reconcile.Children
import Prewarm.Proofs.Reconcile.Fleet
import Prewarm.Proofs.Reconcile.Healing

/-!
# A child leads back to its warm image

A child tells of its warm image in several ways. Its labels hold the identifier and the version that
the selectors of the warm image ask for, its owner reference names the warm image to the observer of
the daemon sets, the observer makes a key of it, and work on the key looks for a warm image and for
children. `Lineage` says that all of these agree, and `child_leads_back` that they do for whatever
child is made of a warm image (`DaemonSet.ofWarmImage`) and however the cluster changes it, as long
as it leaves its namespace, its labels and its owners (`Admitted`).
-/

namespace Prewarm

namespace Scheme

/-- The scheme that knows a number of types. -/
def ofTypes (ts : List ObjectType) : Scheme := ts.foldl register empty

/-- The scheme of some types knows these, each by its kind. -/
theorem get?_ofTypes (ts : List ObjectType) (t : ObjectType) :
    (ofTypes ts).kinds.get? t = if t ∈ ts then some t.kind else none := by
  have hkinds : (ofTypes ts).kinds = ts.foldl (fun ks t => ks.insert t t.kind) .empty :=
    (List.foldl_hom kinds fun _ _ => rfl).symm
  rw [hkinds, Table.get?_foldl_insert]
  rfl

/-- A scheme refers to the types that it knows by their kinds. -/
theorem controllerReference_ofTypes {ts : List ObjectType} {t : ObjectType} (h : t ∈ ts)
    (m : Metadata) :
    (ofTypes ts).controllerReference t m =
      .ok ⟨t.kind.apiVersion, t.kind.kind, m.name.getD "", m.identity, some true, some true⟩ := by
  have hkind : (ofTypes ts).kindOf t = .ok t.kind := by
    unfold kindOf
    rw [get?_ofTypes, if_pos h]
  unfold controllerReference
  rw [hkind]
  rfl

example : forController = ofTypes [.warmImage, .daemonSet] := rfl

end Scheme

namespace Reconcile

/-- A daemon set as the cluster holds it that was created as `d` in a namespace: whatever else has
changed, it is in the namespace and has its labels and its owners. -/
structure Admitted (ns : String) (d child : DaemonSet) : Prop where
  ns : child.metadata.ns = some ns
  labels : child.metadata.labels = d.metadata.labels
  owners : child.metadata.owners = d.metadata.owners

/-- What leads from a child back to its warm image, which has a name in a namespace. An identifier
or a version that is not set counts as empty. -/
structure Lineage (wi : WarmImage) (ns name : String) (d : DaemonSet) : Prop where
  /-- The child, its selector and its pods have the same labels. -/
  labels : ∃ spec, d.spec = some spec ∧ d.metadata.labels = some spec.matchLabels ∧
    spec.template.labels = spec.matchLabels
  /-- The warm image selects the child among the current ones. -/
  current : (Generation.currentSelector wi).accepts d.metadata.labelMap = true
  /-- The warm image selects the child among its own. -/
  owned : (Generation.ownedSelector wi).accepts d.metadata.labelMap = true
  /-- The warm image does not select the child among the stale ones. -/
  stale : (Generation.staleSelector wi).accepts d.metadata.labelMap = false
  /-- No other warm image selects the child. -/
  other : ∀ wi' : WarmImage, wi'.metadata.identity ≠ wi.metadata.identity →
    (Generation.currentSelector wi').accepts d.metadata.labelMap = false ∧
    (Generation.ownedSelector wi').accepts d.metadata.labelMap = false ∧
    (Generation.staleSelector wi').accepts d.metadata.labelMap = false
  /-- Each change of the child in a store puts the key of the warm image on the queue, once. -/
  keys : ∀ notes : List (Note DaemonSet), (∀ n ∈ notes, Admitted ns d n.object) →
    (EnqueueRule.manager "WarmImage").keys notes = notes.map fun _ => keyOf wi
  /-- The key is read as the namespace and the name of the warm image. -/
  split : (keyOf wi).split = .ok (ns, name)
  /-- With these, a store finds what it has filed under the key. -/
  get? : ∀ s : Store WarmImage, s.get? ns name = s.getByKey? (keyOf wi)
  /-- Work on the key is about the warm image as the store has it then. If the store has the child
  too, the work finds it among the current children as long as the version is the same, and among
  the stale ones otherwise. -/
  counted : ∀ (c : Context) (wi' : WarmImage) (child : DaemonSet),
    c.warmImages.getByKey? (keyOf wi) = some wi' →
    wi'.metadata.identity = wi.metadata.identity →
    child ∈ c.daemonSets.items.values → Admitted ns d child →
    dialogue c (keyOf wi) = (do
      ensureChild c (keyOf wi) wi' ns (childrenOf c wi' ns).1
      settle c wi' ns : Work Unit).run ∧
    (wi'.metadata.version = wi.metadata.version →
      child ∈ (childrenOf c wi' ns).1 ∧ child ∉ (childrenOf c wi' ns).2) ∧
    (wi'.metadata.version ≠ wi.metadata.version →
      child ∉ (childrenOf c wi' ns).1 ∧ child ∈ (childrenOf c wi' ns).2)

section
variable {c : Context} {k : Key} {ns name : String} {wi wi' : WarmImage} {d child : DaemonSet}
  {labels : Labels}

/-! ## Labels -/

/-- The labels of a child name its warm image. -/
@[simp] theorem labels_identity (wi : WarmImage) :
    (Generation.labels wi).get? Generation.controllerLabel = some wi.metadata.identity := by
  simp [Generation.labels, Table.ofList, Generation.controllerLabel,
    Generation.versionLabel]

/-- A warm image selects what has the labels of one with its identity. -/
theorem accepts_owned_labels (h : wi'.metadata.identity = wi.metadata.identity) :
    (Generation.ownedSelector wi').accepts (Generation.labels wi) = true := by
  rw [accepts_owned, labels_identity, h, beq_self_eq_true]

/-- No selector of a warm image accepts what it does not own. -/
theorem not_accepts_of_not_owned (h : (Generation.ownedSelector wi).accepts labels = false) :
    (Generation.currentSelector wi).accepts labels = false ∧
      (Generation.ownedSelector wi).accepts labels = false ∧
      (Generation.staleSelector wi).accepts labels = false := by
  rw [accepts_current, accepts_stale, h]
  exact ⟨rfl, rfl, rfl⟩

/-- A warm image does not select what has the labels of another. -/
theorem not_accepts_other_labels (h : wi'.metadata.identity ≠ wi.metadata.identity) :
    (Generation.ownedSelector wi').accepts (Generation.labels wi) = false := by
  rw [accepts_owned, labels_identity, beq_eq_false_iff_ne]
  exact fun he => h (Option.some.inj he).symm

/-! ## Owners -/

/-- What has one owner puts the key of this owner on the queue, if it manages what it owns. -/
theorem key?_manager {n : Note DaemonSet} {owner : OwnerReference}
    (hns : n.object.metadata.ns = some ns) (howners : n.object.metadata.owners = some [owner])
    (hmanages : owner.controller = some true) :
    (EnqueueRule.manager owner.kind).key? n = some (Key.ofParts ns owner.name) := by
  have hfind : EnqueueRule.managerOf? owner.kind n.object.metadata = some owner := by
    simp [EnqueueRule.managerOf?, howners, hmanages]
  have hkey : (EnqueueRule.manager owner.kind).key? n =
      (EnqueueRule.managerOf? owner.kind n.object.metadata).map fun r =>
        Key.ofParts (n.object.metadata.ns.getD "") r.name := by
    cases n with
    | added | updated | deleted => rfl
  rw [hkey, hfind, hns]
  rfl

/-- Changes all of which concern one key put just that key on the queue, once for each. -/
theorem keys_of_key? {rule : EnqueueRule} {notes : List (Note DaemonSet)}
    (h : ∀ n ∈ notes, rule.key? n = some k) : rule.keys notes = notes.map fun _ => k := by
  induction notes with
  | nil => rfl
  | cons n notes ih =>
    have hn : rule.key? n = some k := h n List.mem_cons_self
    have hnotes : rule.keys notes = notes.map fun _ => k :=
      ih fun n' hn' => h n' (List.mem_cons_of_mem n hn')
    rw [EnqueueRule.keys, List.filterMap_cons_some hn, List.map_cons]
    exact congrArg (k :: ·) hnotes

/-! ## Work on the key -/

/-- A child that the cluster holds is a current one of its warm image just as long as the version is
the same. -/
theorem isCurrent_of_admitted (hchild : Admitted ns d child)
    (hlabels : d.metadata.labels = some (Generation.labels wi))
    (hid : wi'.metadata.identity = wi.metadata.identity) :
    isCurrent wi' ns child = (wi.metadata.version == wi'.metadata.version) := by
  rw [isCurrent_eq, accepts_current, Metadata.labelMap, hchild.labels, hlabels, Option.getD_some,
    accepts_owned_labels hid, labels_version]
  simp [Store.isIn, metadata, hchild.ns]

/-- A child that the cluster holds is a stale one of its warm image once the version is another. -/
theorem isStale_of_admitted (hchild : Admitted ns d child)
    (hlabels : d.metadata.labels = some (Generation.labels wi))
    (hid : wi'.metadata.identity = wi.metadata.identity) :
    isStale wi' ns child = (wi.metadata.version != wi'.metadata.version) := by
  rw [isStale_eq, accepts_stale, Metadata.labelMap, hchild.labels, hlabels, Option.getD_some,
    accepts_owned_labels hid, labels_version, bne, bne]
  simp [Store.isIn, metadata, hchild.ns]

/-- Work on the key of a warm image finds what has its labels, in its namespace. -/
theorem counted_of_labels (hk : k.split = .ok (ns, name))
    (hwi : c.warmImages.get? ns name = some wi')
    (hid : wi'.metadata.identity = wi.metadata.identity)
    (hlabels : d.metadata.labels = some (Generation.labels wi))
    (hmem : child ∈ c.daemonSets.items.values) (hchild : Admitted ns d child) :
    dialogue c k = (do
      ensureChild c k wi' ns (childrenOf c wi' ns).1
      settle c wi' ns : Work Unit).run ∧
    (wi'.metadata.version = wi.metadata.version →
      child ∈ (childrenOf c wi' ns).1 ∧ child ∉ (childrenOf c wi' ns).2) ∧
    (wi'.metadata.version ≠ wi.metadata.version →
      child ∉ (childrenOf c wi' ns).1 ∧ child ∈ (childrenOf c wi' ns).2) := by
  refine ⟨by rw [dialogue_of_split hk, hwi], fun hversion => ?_, fun hversion => ?_⟩
  · rw [mem_currentOf, mem_staleOf, isCurrent_of_admitted hchild hlabels hid,
      isStale_of_admitted hchild hlabels hid]
    simp [hmem, hversion]
  · rw [mem_currentOf, mem_staleOf, isCurrent_of_admitted hchild hlabels hid,
      isStale_of_admitted hchild hlabels hid]
    simp [hmem, Ne.symm hversion]

/-- Whatever child is made of a warm image that has a name in a namespace, neither of them with a
slash, leads back to the warm image. -/
theorem child_leads_back {ts : List ObjectType} (hts : .warmImage ∈ ts)
    (hns : wi.metadata.ns = some ns) (hns_slash : '/' ∉ ns.toList)
    (hname : wi.metadata.name = some name) (hname_ne : name ≠ "")
    (hname_slash : '/' ∉ name.toList) (image sleeperImage : String) :
    ∃ owner, (Scheme.ofTypes ts).controllerReference .warmImage wi.metadata = .ok owner ∧
      Lineage wi ns name (.ofWarmImage wi image sleeperImage owner) := by
  have hkey : keyOf wi = Key.ofParts ns name := by
    simp [keyOf, metadata, Metadata.key, hns, hname]
  have hsplit : (keyOf wi).split = .ok (ns, name) := by
    rw [hkey, Key.split_ofParts hns_slash hname_slash hname_ne]
  refine ⟨_, Scheme.controllerReference_ofTypes hts wi.metadata, ?_⟩
  exact {
    labels := ⟨_, rfl, rfl, rfl⟩
    current := accepts_current_labels wi
    owned := accepts_owned_labels rfl
    stale := not_accepts_stale_of_current (accepts_current_labels wi)
    other := fun wi' hid => not_accepts_of_not_owned (not_accepts_other_labels hid)
    keys := by
      intro notes hnotes
      have hkeys : ∀ n ∈ notes, (EnqueueRule.manager "WarmImage").key? n = some (keyOf wi) := by
        intro n hn
        have h := key?_manager (hnotes n hn).ns (hnotes n hn).owners rfl
        rw [hname, Option.getD_some, ← hkey] at h
        exact h
      exact keys_of_key? hkeys
    split := hsplit
    get? := fun s => by rw [Store.get?, hkey]
    counted := fun c wi' child hwi hid hmem hchild =>
      counted_of_labels hsplit (by rw [Store.get?, ← hkey]; exact hwi) hid rfl hmem hchild }

/-- The child of a warm image comes to the store under a name of its own and is taken out again.
Both changes put the key of the warm image on the queue, and work on the key finds the child as a
current one, or as a stale one if the warm image has changed. -/
theorem child_leads_back_shown :
    let child := Fleet.placed "ns" "a0" none none sampleChild
    let changed : WarmImage :=
      { sample with metadata := { sample.metadata with resourceVersion := some "2" } }
    let daemonSets : Store DaemonSet := { items := .ofList [("ns/a0", child)] }
    let c (wi : WarmImage) : Context :=
      ⟨.forController, { items := .ofList [("ns/a", wi)] }, daemonSets, "sleeper"⟩
    Controller.childRule.keys [.added child, .deleted child] = ["ns/a", "ns/a"] ∧
      child ∈ (childrenOf (c sample) sample "ns").1 ∧
      child ∈ (childrenOf (c changed) changed "ns").2 := by
  intro child changed daemonSets c
  have hts : ObjectType.warmImage ∈ [ObjectType.warmImage, .daemonSet] := List.mem_cons_self
  have hns : sample.metadata.ns = some "ns" := rfl
  have hname : sample.metadata.name = some "a" := rfl
  obtain ⟨owner, howner, hsample⟩ :=
    child_leads_back hts hns (by decide) hname (by decide) (by decide) "" "sleeper"
  cases howner
  have hlineage : Lineage sample "ns" "a" sampleChild := hsample
  have hchild : Admitted "ns" sampleChild child := ⟨rfl, rfl, rfl⟩
  have hmem : child ∈ daemonSets.items.values := List.mem_singleton.2 rfl
  refine ⟨hlineage.keys [.added child, .deleted child] ?_, ?_, ?_⟩
  · simpa [Note.object] using hchild
  · obtain ⟨-, hsame, -⟩ := hlineage.counted (c sample) sample child rfl rfl hmem hchild
    exact (hsame rfl).1
  · obtain ⟨-, -, hchanged⟩ := hlineage.counted (c changed) changed child rfl rfl hmem hchild
    exact (hchanged (by decide)).2

end

end Reconcile

end Prewarm
