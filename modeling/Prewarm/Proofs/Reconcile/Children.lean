import Prewarm.Controller
import Prewarm.Proofs.Reconcile.Course

/-!
# Children by their labels

The children of a warm image are told by their labels: those of the current generation (`isCurrent`)
and those of another generation, or of none (`isStale`). Work on the warm image finds them with one
selector, divides them with a second one and deletes with a third. What these accept of any labels
goes together (`accepts_owned_eq`), so the work finds just the children of either sort
(`mem_currentOf`, `mem_staleOf`).
-/

namespace Prewarm.Reconcile

section
variable {c : Context} {ns : String} {wi : WarmImage} {d : DaemonSet} {labels : Labels}

/-- Whether a daemon set is labelled as a child of a warm image, in a namespace. -/
def isOwned (wi : WarmImage) (ns : String) (d : DaemonSet) : Bool :=
  d.metadata.ns == some ns &&
    d.metadata.labelMap.get? Generation.controllerLabel == some wi.metadata.identity

/-- Whether a daemon set is labelled as a child of the current generation. -/
def isCurrent (wi : WarmImage) (ns : String) (d : DaemonSet) : Bool :=
  isOwned wi ns d &&
    d.metadata.labelMap.get? Generation.versionLabel == some wi.metadata.version

/-- Whether a daemon set is labelled as a child of another generation, or of none. -/
def isStale (wi : WarmImage) (ns : String) (d : DaemonSet) : Bool :=
  isOwned wi ns d &&
    d.metadata.labelMap.get? Generation.versionLabel != some wi.metadata.version

/-! ## Selectors -/

/-- The selector for own children asks for the label of the warm image, and for nothing else. -/
theorem accepts_owned (wi : WarmImage) (labels : Labels) :
    (Generation.ownedSelector wi).accepts labels =
      (labels.get? Generation.controllerLabel == some wi.metadata.identity) := by
  simp [Generation.ownedSelector, Selector.accepts, Requirement.holds]

/-- The selector for current children asks for the label of the version besides. -/
theorem accepts_current (wi : WarmImage) (labels : Labels) :
    (Generation.currentSelector wi).accepts labels =
      ((Generation.ownedSelector wi).accepts labels &&
        labels.get? Generation.versionLabel == some wi.metadata.version) := by
  simp [Generation.currentSelector, Generation.ownedSelector, Selector.accepts, Requirement.holds]

/-- The selector for stale children asks for another version, or none, besides. -/
theorem accepts_stale (wi : WarmImage) (labels : Labels) :
    (Generation.staleSelector wi).accepts labels =
      ((Generation.ownedSelector wi).accepts labels &&
        labels.get? Generation.versionLabel != some wi.metadata.version) := by
  simp [Generation.staleSelector, Generation.ownedSelector, Selector.accepts, Requirement.holds]

/-- The labels of a child of a warm image are accepted as those of the current generation or as
stale ones, and not as both. -/
theorem accepts_owned_eq (wi : WarmImage) (labels : Labels) :
    (Generation.ownedSelector wi).accepts labels =
      ((Generation.currentSelector wi).accepts labels ^^
        (Generation.staleSelector wi).accepts labels) := by
  rw [accepts_current, accepts_stale, bne]
  cases (Generation.ownedSelector wi).accepts labels <;>
    cases labels.get? Generation.versionLabel == some wi.metadata.version <;> rfl

/-- Labels that are accepted as those of the current generation are not stale. -/
theorem not_accepts_stale_of_current (h : (Generation.currentSelector wi).accepts labels = true) :
    (Generation.staleSelector wi).accepts labels = false := by
  rw [accepts_current, Bool.and_eq_true] at h
  rw [accepts_stale, bne, h.2, Bool.not_true, Bool.and_false]

/-- The labels of a child of another warm image are not stale ones of this. -/
theorem not_accepts_stale_of_other {u : String}
    (h : labels.get? Generation.controllerLabel = some u) (hu : u ≠ wi.metadata.identity) :
    (Generation.staleSelector wi).accepts labels = false := by
  simp [accepts_stale, accepts_owned, h, hu]

/-- The labels that a child is created with are those of the current generation. -/
@[simp] theorem accepts_current_labels (wi : WarmImage) :
    (Generation.currentSelector wi).accepts (Generation.labels wi) = true := by
  simp [accepts_current, accepts_owned, Generation.labels, Table.ofList,
    Generation.controllerLabel, Generation.versionLabel]

/-! ## What work finds in the store -/

/-- The own children in a namespace are those that the selector for them accepts there. -/
theorem isOwned_eq (wi : WarmImage) (ns : String) (d : DaemonSet) :
    isOwned wi ns d =
      (Store.isIn (some ns) d && (Generation.ownedSelector wi).accepts d.metadata.labelMap) := by
  rw [accepts_owned]
  rfl

/-- The current children in a namespace are those that the selector for them accepts there. -/
theorem isCurrent_eq (wi : WarmImage) (ns : String) (d : DaemonSet) :
    isCurrent wi ns d =
      (Store.isIn (some ns) d && (Generation.currentSelector wi).accepts d.metadata.labelMap) := by
  rw [isCurrent, isOwned_eq, accepts_current, Bool.and_assoc]

/-- The stale children in a namespace are those that the selector for them accepts there. -/
theorem isStale_eq (wi : WarmImage) (ns : String) (d : DaemonSet) :
    isStale wi ns d =
      (Store.isIn (some ns) d && (Generation.staleSelector wi).accepts d.metadata.labelMap) := by
  rw [isStale, isOwned_eq, accepts_stale, Bool.and_assoc]

/-- The selector for own children finds all those that the store holds, and no others. -/
theorem mem_ownedOf :
    d ∈ c.daemonSets.select (some ns) (Generation.ownedSelector wi) ↔
      d ∈ c.daemonSets.items.values ∧ isOwned wi ns d = true := by
  rw [isOwned_eq]
  exact List.mem_filter

/-- The children that work takes for those of the current generation. -/
theorem mem_currentOf :
    d ∈ (childrenOf c wi ns).1 ↔ d ∈ c.daemonSets.items.values ∧ isCurrent wi ns d = true := by
  unfold childrenOf
  rw [List.partition_eq_filter_filter, List.mem_filter, mem_ownedOf, and_assoc, isCurrent_eq,
    isOwned_eq, ← Bool.and_eq_true, accepts_current]
  grind

/-- The children that work takes for stale ones. -/
theorem mem_staleOf :
    d ∈ (childrenOf c wi ns).2 ↔ d ∈ c.daemonSets.items.values ∧ isStale wi ns d = true := by
  unfold childrenOf
  rw [List.partition_eq_filter_filter, List.mem_filter, mem_ownedOf, and_assoc, isStale_eq,
    isOwned_eq, ← Bool.and_eq_true, Function.comp, accepts_current, accepts_stale, bne]
  grind

/-- No child is both of the current generation and of another. -/
theorem not_isStale_of_isCurrent (h : isCurrent wi ns d = true) : isStale wi ns d = false := by
  rw [isCurrent_eq, Bool.and_eq_true] at h
  rw [isStale_eq, not_accepts_stale_of_current h.2, Bool.and_false]

/-- A daemon set with the labels of a new child is a current one. -/
theorem isCurrent_of_labels (hns : d.metadata.ns = some ns)
    (hlabels : d.metadata.labels = some (Generation.labels wi)) : isCurrent wi ns d = true := by
  rw [isCurrent_eq, Metadata.labelMap, hlabels, Option.getD_some, accepts_current_labels]
  simp [Store.isIn, metadata, hns]

/-- A child of a warm image is a child at all. -/
theorem isChild_of_isOwned (h : isOwned wi ns d = true) :
    Controller.childSelector.accepts d.metadata.labelMap = true := by
  rw [isOwned, Bool.and_eq_true, beq_iff_eq, beq_iff_eq] at h
  simp [Controller.childSelector, Selector.accepts, Requirement.holds, Table.contains, h.2]

end

end Prewarm.Reconcile
