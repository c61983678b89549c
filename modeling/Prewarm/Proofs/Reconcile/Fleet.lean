import Prewarm.Controller
import Prewarm.Proofs.Reconcile.Course

/-!
# Work among others that do not fail

The daemon sets of a cluster are a `Fleet`. Work on a key changes it by what it asks for: a daemon
set that is created is put under a name that is free, and those of a namespace that a selector
accepts are deleted. `Peers` are those whom work asks, if none of them fails: what they answer is
left open otherwise, and how long they take. With them every dialogue comes to its end
(`Peers.hold`).
-/

namespace Prewarm

/-! ## Fleets -/

/-- Where an object is: its namespace and its name. -/
def Metadata.place (m : Metadata) : Option String × Option String := (m.ns, m.name)

/-- The daemon sets of a cluster, of which no two are in one place. -/
structure Fleet where
  members : List DaemonSet
  nodup : (members.map fun d => d.metadata.place).Nodup

namespace Fleet

/-- A daemon set in the place where it is put, with what it gets there. -/
def placed (ns name : String) (uid version : Option String) (d : DaemonSet) : DaemonSet :=
  { d with metadata :=
    { d.metadata with ns := some ns, name := some name, uid := uid, resourceVersion := version } }

/-- The fleet with one more daemon set, in a place that is free. -/
def create (f : Fleet) (ns name : String) (uid version : Option String) (d : DaemonSet)
    (hfree : ∀ m ∈ f.members, m.metadata.place ≠ (some ns, some name)) : Fleet where
  members := placed ns name uid version d :: f.members
  nodup := by
    refine List.nodup_cons.2 ⟨fun hmem => ?_, f.nodup⟩
    obtain ⟨m, hm, hplace⟩ := List.mem_map.1 hmem
    exact hfree m hm hplace

/-- The fleet without the daemon sets of a namespace that a selector accepts. -/
def deleteCollection (f : Fleet) (ns : String) (sel : Selector) : Fleet where
  members := f.members.filter fun d =>
    !(Store.isIn (some ns) d && sel.accepts d.metadata.labelMap)
  nodup := f.nodup.sublist (List.filter_sublist.map _)

/-- A name that no daemon set of the fleet has, since it is longer than theirs. -/
def freeName (f : Fleet) : String :=
  String.ofList (.replicate
    ((f.members.map fun d => (d.metadata.name.getD "").length).foldr max 0 + 1) 'x')

/-- No daemon set of the fleet has the free name in any namespace. -/
theorem place_ne_freeName (f : Fleet) (ns : String) :
    ∀ m ∈ f.members, m.metadata.place ≠ (some ns, some f.freeName) := by
  have hle : ∀ (l : List Nat) (n : Nat), n ∈ l → n ≤ l.foldr max 0 := by
    intro l n hn
    induction l with
    | nil => cases hn
    | cons x l ih =>
      rw [List.foldr_cons]
      rcases List.mem_cons.1 hn with rfl | hn
      · exact Nat.le_max_left ..
      · exact Nat.le_trans (ih hn) (Nat.le_max_right ..)
  intro m hm hplace
  have hname : m.metadata.name = some f.freeName := congrArg Prod.snd hplace
  have hlen := hle _ _ (List.mem_map_of_mem (f := fun d => (d.metadata.name.getD "").length) hm)
  rw [hname, Option.getD_some] at hlen
  unfold freeName at hlen
  rw [String.length_ofList, List.length_replicate] at hlen
  omega

end Fleet

namespace Reconcile

/-- The reading of the clock, what is expected, and the daemon sets of the cluster. -/
structure Scene where
  now : Instant
  expectations : Expectations
  fleet : Fleet

/-- The same some time later. -/
def Scene.after (s : Scene) (nanos : Nat) : Scene := { s with now := ⟨s.now.nanos + nanos⟩ }

/-- Those whom work asks, none of whom fails. -/
structure Peers where
  /-- The time that passes before an answer. -/
  pause : Scene → Query → Nat
  /-- The secret with a name in a namespace, if there is one. -/
  secret : Scene → String → String → Option Secret
  /-- The digest of a tag. -/
  digest : Scene → TagReference → Logins → String
  /-- The name of a new daemon set. -/
  name : Scene → String → DaemonSet → String
  /-- The identifier of a new daemon set. -/
  uid : Scene → String → DaemonSet → Option String
  /-- The version of a new daemon set. -/
  version : Scene → String → DaemonSet → Option String
  /-- Whether what happened is taken down, which does not matter to the work. -/
  publish : Scene → ObjectReference → Event → Except ClusterError Unit
  /-- The name is one that no daemon set of the namespace has. -/
  free : ∀ (s : Scene) (ns : String) (d : DaemonSet), ∀ m ∈ s.fleet.members,
    m.metadata.place ≠ (some ns, some (name s ns d))

namespace Peers

/-- Those who answer at once, have no secrets and one digest for all tags, and give every new daemon
set a name that is free. -/
def plain : Peers where
  pause _ _ := 0
  secret _ _ _ := none
  digest _ _ _ := "sha256:0"
  name s _ _ := s.fleet.freeName
  uid _ _ _ := none
  version _ _ _ := none
  publish _ _ _ := .ok ()
  free s ns _ := s.fleet.place_ne_freeName ns

variable (h : Peers)

/-- What becomes of the fleet when a daemon set is created. -/
def create (s : Scene) (ns : String) (d : DaemonSet) : Fleet :=
  s.fleet.create ns (h.name s ns d) (h.uid s ns d) (h.version s ns d) d (h.free s ns d)

/-- The answer to a question, without the time that it takes. -/
def reply : (q : Query) → StateM Scene q.Answer
  | .isPending k v => fun s =>
    let (b, x) := s.expectations.isPending k v s.now
    (b, { s with expectations := x })
  | .expect k v => fun s => ((), { s with expectations := s.expectations.expect k v s.now })
  | .observed k => fun s => ((), { s with expectations := s.expectations.observed k })
  | .secret ns name => fun s => (.ok (h.secret s ns name), s)
  | .digest t ls => fun s => (.ok (h.digest s t ls), s)
  | .create ns d => fun s => (.ok (), { s with fleet := h.create s ns d })
  | .deleteCollection ns sel _ => fun s =>
    (.ok (), { s with fleet := s.fleet.deleteCollection ns sel })
  | .publish about e => fun s => (h.publish s about e, s)

/-- The answer to a question, after the time that it takes. -/
def answer (q : Query) : StateM Scene q.Answer := fun s => h.reply q (s.after (h.pause s q))

/-- A dialogue that is held to its end: what it comes to, and what it leaves. -/
def hold {α : Type} (d : Talk α) (s : Scene) : α × Scene := (d.run h.answer).run s

section
variable {h} {α β : Type} {s : Scene} {c : Context} {k : Key} {wi : WarmImage} {ns : String}

/-- A dialogue that asks goes on with the answer, in the scene that the answer leaves. -/
theorem hold_ask (q : Query) (next : q.Answer → Talk α) :
    h.hold (.ask q next) s = h.hold (next (h.answer q s).1) (h.answer q s).2 := rfl

/-- A dialogue that goes on as another is held by holding one after the other. -/
theorem hold_bind (d : Talk α) (f : α → Talk β) :
    h.hold (d.bind f) s = h.hold (f (h.hold d s).1) (h.hold d s).2 := by
  induction d generalizing s with
  | done a => rfl
  | ask q next ih => rw [Dialogue.bind_ask, hold_ask, ih, hold_ask]

/-! ## What work comes to -/

/-- The secrets with logins are read, and nothing else is asked. -/
theorem hold_addLogins (ns : String) (ls : Logins) (names : List String) :
    ∃ ls' s', h.hold (sources.addLogins ns ls names) s = (.ok ls', s') ∧ s'.fleet = s.fleet := by
  induction names generalizing ls s with
  | nil => exact ⟨ls, s, rfl, rfl⟩
  | cons name names ih =>
    have hask : ∀ f : Except ClusterError (Option Secret) → Talk (Except ClusterError Logins),
        h.hold (sources.secret ns name >>= f) s =
          h.hold (f (.ok (h.secret (s.after (h.pause s (.secret ns name))) ns name)))
            (s.after (h.pause s (.secret ns name))) := fun f => rfl
    unfold PinSources.addLogins
    rw [hask]
    cases h.secret (s.after (h.pause s (.secret ns name))) ns name with
    | none => exact ih (s := s.after (h.pause s (.secret ns name))) ls
    | some x => exact ih (s := s.after (h.pause s (.secret ns name))) (ls.addSecret x)

/-- An image is pinned. -/
theorem hold_pin (ns image : String) (secrets : List String) :
    ∃ image' s', h.hold (sources.pin ns image secrets) s = (.ok image', s') ∧
      s'.fleet = s.fleet := by
  unfold PinSources.pin
  split
  · exact ⟨image, s, rfl, rfl⟩
  · next t _ =>
    obtain ⟨ls, s', hls, hfleet⟩ := hold_addLogins (h := h) (s := s) ns .anonymous secrets
    have hbind : ∀ f : Except ClusterError Logins → Talk (Except ResolveError String),
        h.hold (sources.addLogins ns .anonymous secrets >>= f) s = h.hold (f (.ok ls)) s' := by
      intro f
      refine (hold_bind _ f).trans ?_
      rw [hls]
    exact ⟨_, _, hbind _, hfleet⟩

/-- A child of the current generation is created. -/
theorem hold_createChild {g : GroupVersionKind} (wi : WarmImage) (ns : String)
    (hg : c.scheme.kindOf .warmImage = .ok g) :
    ∃ d s', h.hold (createChild c wi ns).run s = (.ok (), s') ∧
      s'.fleet.members = d :: s.fleet.members ∧
      d.metadata.ns = some ns ∧ d.metadata.labels = some (Generation.labels wi) := by
  obtain ⟨image, s', hpin, hfleet⟩ := hold_pin (h := h) (s := s) ns wi.image wi.pullSecret.toList
  rw [createChild_run, hold_bind, hpin]
  simp only [Scheme.controllerReference, hg]
  exact ⟨_, _, rfl, congrArg (_ :: ·) (congrArg Fleet.members hfleet), rfl, rfl⟩

/-- Telling a warm image that all is well succeeds if the scheme knows the type, and leaves the
fleet alone. -/
theorem hold_publishSynced {g : GroupVersionKind} (wi : WarmImage)
    (hg : c.scheme.kindOf .warmImage = .ok g) :
    ∃ s', h.hold (publishSynced c wi).run s = (.ok (), s') ∧ s'.fleet = s.fleet := by
  rw [publishSynced_run]
  simp only [Scheme.objectReference, hg]
  exact ⟨_, rfl, rfl⟩

/-- The stale children are deleted, if there are any. -/
theorem hold_settle {g : GroupVersionKind} (wi : WarmImage) (ns : String)
    (hg : c.scheme.kindOf .warmImage = .ok g) :
    ∃ s', h.hold (settle c wi ns).run s = (.ok (), s') ∧
      s'.fleet = if (childrenOf c wi ns).2.isEmpty then s.fleet
        else s.fleet.deleteCollection ns (Generation.staleSelector wi) := by
  rw [settle_run]
  split
  · exact hold_publishSynced wi hg
  · rw [hold_ask]
    exact hold_publishSynced wi hg

end

end Peers

end Reconcile

end Prewarm
