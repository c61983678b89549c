import Prewarm.Reconcile

/-!
# The course of work on a key

What work on a key asks, and in which order. What it begins with is a matter of what it finds in the
stores (`Finding`): if there is nothing to make it asks to forget the expectation for its key
(`dialogue_of_absent`, `dialogue_of_present`), and if the current generation has no child it asks
whether one is expected and makes one if not (`dialogue_of_childless`). `Opening` says this in
short, and `Course` is all that can be left of the work from then on: every answer keeps it
(`Course.next`), and in it the expectations are only asked about the key that is worked on.
-/

namespace Prewarm.Reconcile

/-- What is left of work on a key. -/
abbrev Rest := Talk (Except Failure Unit)

/-! ## What work finds -/

/-- What work on a key finds in the stores when it begins. -/
inductive Finding where
  | invalidKey (e : InvalidKey)
  /-- There is no warm image with the key. -/
  | absent
  /-- There is a child of the current generation, that of a version. -/
  | present (version : String)
  /-- There is no child of the current generation, that of a version. -/
  | childless (version : String)
  deriving DecidableEq

/-- What work on a key finds in the stores of a context. -/
def found (c : Context) (k : Key) : Finding :=
  match k.split with
  | .error e => .invalidKey e
  | .ok (ns, name) =>
    match c.warmImages.get? ns name with
    | none => .absent
    | some wi =>
      if (childrenOf c wi ns).1.isEmpty then .childless wi.metadata.version
      else .present wi.metadata.version

section
variable {c : Context} {k : Key} {ns name : String} {wi : WarmImage}

/-- The end of work on a warm image: its stale children are deleted and it is told that all is well.
-/
def settle (c : Context) (wi : WarmImage) (ns : String) : Work Unit := do
  deleteStale wi ns (childrenOf c wi ns).2
  publishSynced c wi

/-- Work on a malformed key ends at once. -/
theorem dialogue_of_invalidKey {e : InvalidKey} (h : k.split = .error e) :
    dialogue c k = .done (.error (.invalidKey e)) := by
  unfold dialogue work
  rw [h]
  rfl

/-- With the key of a warm image, work goes by whether there is one. -/
theorem dialogue_of_split (h : k.split = .ok (ns, name)) :
    dialogue c k = (match c.warmImages.get? ns name with
      | none => ask (.observed k)
      | some wi => do
        ensureChild c k wi ns (childrenOf c wi ns).1
        settle c wi ns : Work Unit).run := by
  unfold dialogue work
  rw [h]
  rfl

/-- Work on the key of no warm image ends once nothing is expected for the key any more. -/
theorem dialogue_of_absent (h : k.split = .ok (ns, name)) (hwi : c.warmImages.get? ns name = none) :
    dialogue c k = .ask (.observed k) fun _ => .done (.ok ()) := by
  rw [dialogue_of_split h, hwi]
  rfl

/-- Work on a warm image with a current child takes note of it and goes on to the end. -/
theorem dialogue_of_present (h : k.split = .ok (ns, name))
    (hwi : c.warmImages.get? ns name = some wi) (hcur : (childrenOf c wi ns).1.isEmpty = false) :
    dialogue c k = .ask (.observed k) fun _ => (settle c wi ns).run := by
  rw [dialogue_of_split h, hwi]
  simp only [ensureChild, hcur]
  rfl

/-- After a child was made it is expected, and if none could be made the work has failed. -/
def andExpect (c : Context) (k : Key) (wi : WarmImage) (ns : String) : Except Failure Unit → Rest
  | .error e => .done (.error e)
  | .ok () => .ask (.expect k wi.metadata.version) fun _ => (settle c wi ns).run

/-- Work on a warm image without a current child asks whether one is expected, and makes it if not.
-/
theorem dialogue_of_childless (h : k.split = .ok (ns, name))
    (hwi : c.warmImages.get? ns name = some wi) (hcur : (childrenOf c wi ns).1.isEmpty = true) :
    dialogue c k = .ask (.isPending k wi.metadata.version) fun b =>
      if b then (settle c wi ns).run
      else (createChild c wi ns).run.bind (andExpect c k wi ns) := by
  rw [dialogue_of_split h, hwi]
  simp only [ensureChild, hcur]
  refine congrArg (Dialogue.ask _) (funext fun b => ?_)
  cases b with
  | true => rfl
  | false =>
    refine (Dialogue.bind_assoc (createChild c wi ns).run _ _).trans ?_
    refine congrArg (Dialogue.bind _) (funext fun r => ?_)
    cases r with
    | error e => rfl
    | ok u => rfl

/-- A child is made of the image that the sources have pinned. -/
theorem createChild_run (c : Context) (wi : WarmImage) (ns : String) :
    (createChild c wi ns).run =
      (sources.pin ns wi.image wi.pullSecret.toList).bind fun
        | .error e => .done (.error (.resolve e))
        | .ok image =>
          match c.scheme.controllerReference .warmImage wi.metadata with
          | .error e => .done (.error (.scheme e))
          | .ok owner =>
            .ask (.create ns (.ofWarmImage wi image c.sleeperImage owner)) fun
              | .error e => .done (.error (.cluster e))
              | .ok () => .done (.ok ()) := by
  refine (Dialogue.bind_assoc (sources.pin ns wi.image wi.pullSecret.toList) _ _).trans ?_
  refine congrArg (Dialogue.bind _) (funext fun r => ?_)
  cases r with
  | error e => rfl
  | ok image =>
    refine (Dialogue.bind_done _ _).trans ?_
    cases h : c.scheme.controllerReference .warmImage wi.metadata with
    | error e =>
      simp only [ExceptT.bindCont, orFail]
      rfl
    | ok owner =>
      simp only [ExceptT.bindCont, orFail]
      refine congrArg (Dialogue.ask _) (funext fun a => ?_)
      cases a with
      | error e => rfl
      | ok u => rfl

/-- How work tells a warm image that all is well, which fails if the scheme does not know the type.
-/
theorem publishSynced_run (c : Context) (wi : WarmImage) :
    (publishSynced c wi).run =
      match c.scheme.objectReference .warmImage wi.metadata with
      | .error e => .done (.error (.scheme e))
      | .ok about => .ask (.publish about .synced) fun _ => .done (.ok ()) := by
  unfold publishSynced
  cases c.scheme.objectReference .warmImage wi.metadata with
  | error e => rfl
  | ok about => rfl

/-- The end of work on a warm image: stale children are deleted only where there are some. -/
theorem settle_run (c : Context) (wi : WarmImage) (ns : String) :
    (settle c wi ns).run =
      if (childrenOf c wi ns).2.isEmpty then (publishSynced c wi).run
      else .ask (.deleteCollection ns (Generation.staleSelector wi) .foreground) fun
        | .error e => .done (.error (.cluster e))
        | .ok () => (publishSynced c wi).run := by
  unfold settle deleteStale
  cases (childrenOf c wi ns).2.isEmpty with
  | true => rfl
  | false =>
    refine congrArg (Dialogue.ask _) (funext fun a => ?_)
    cases a with
    | error e => rfl
    | ok u => rfl

end

/-! ## What can be left of work -/

/-- Work that neither asks about expectations nor creates anything. -/
inductive Closing : Rest → Prop
  | done (r : Except Failure Unit) : Closing (.done r)
  | deleteCollection {ns : String} {sel : Selector} {p : Propagation}
      {next : Except ClusterError Unit → Rest} :
      (∀ a, Closing (next a)) → Closing (.ask (.deleteCollection ns sel p) next)
  | publish {about : ObjectReference} {ev : Event} {next : Except ClusterError Unit → Rest} :
      (∀ a, Closing (next a)) → Closing (.ask (.publish about ev) next)

/-- Work on its way to the one child of a version that it makes for a key. It does not end well
before. -/
inductive Creating (k : Key) (v : String) : Rest → Prop
  | failed (e : Failure) : Creating k v (.done (.error e))
  | secret {ns name : String} {next : Except ClusterError (Option Secret) → Rest} :
      (∀ a, Creating k v (next a)) → Creating k v (.ask (.secret ns name) next)
  | digest {t : TagReference} {ls : Logins} {next : Except ResolveError String → Rest} :
      (∀ a, Creating k v (next a)) → Creating k v (.ask (.digest t ls) next)
  | create {ns : String} {child : DaemonSet} {next : Except ClusterError Unit → Rest}
      {rest : Unit → Rest} :
      child.metadata.labelMap.get? Generation.versionLabel = some v →
      (∀ e, next (.error e) = .done (.error (.cluster e))) →
      next (.ok ()) = .ask (.expect k v) rest → Closing (rest ()) →
      Creating k v (.ask (.create ns child) next)

/-- What can be left of work on a key. -/
inductive Course (k : Key) : Rest → Prop
  | observed {next : Unit → Rest} : Closing (next ()) → Course k (.ask (.observed k) next)
  | isPending {v : String} {next : Bool → Rest} :
      Closing (next true) → Creating k v (next false) → Course k (.ask (.isPending k v) next)
  | creating {v : String} {d : Rest} : Creating k v d → Course k d
  | expect {v : String} {next : Unit → Rest} :
      Closing (next ()) → Course k (.ask (.expect k v) next)
  | closing {d : Rest} : Closing d → Course k d

/-- What work on a key begins with, after what it finds. -/
inductive Opening (k : Key) : Finding → Rest → Prop
  | invalidKey (e : InvalidKey) : Opening k (.invalidKey e) (.done (.error (.invalidKey e)))
  | absent {next : Unit → Rest} : Closing (next ()) → Opening k .absent (.ask (.observed k) next)
  | present {v : String} {next : Unit → Rest} :
      Closing (next ()) → Opening k (.present v) (.ask (.observed k) next)
  | childless {v : String} {next : Bool → Rest} :
      Closing (next true) → Creating k v (next false) →
      Opening k (.childless v) (.ask (.isPending k v) next)

section
variable {c : Context} {k : Key} {v ns name : String} {wi : WarmImage}

/-- The end of work on a warm image asks about no expectations and creates nothing. -/
theorem closing_settle (c : Context) (wi : WarmImage) (ns : String) :
    Closing (settle c wi ns).run := by
  have hpublish : Closing (publishSynced c wi).run := by
    rw [publishSynced_run]
    split
    · exact .done _
    · exact .publish fun _ => .done _
  rw [settle_run]
  split
  · exact hpublish
  · refine .deleteCollection fun a => ?_
    cases a with
    | error e => exact .done _
    | ok u => exact hpublish

/-- To read the secrets with logins, secrets are read and nothing else. -/
theorem Creating.addLogins {f : Except ClusterError Logins → Rest} (hf : ∀ r, Creating k v (f r))
    (ls : Logins) (names : List String) :
    Creating k v ((sources.addLogins ns ls names).bind f) := by
  induction names generalizing ls with
  | nil => exact hf _
  | cons name names ih =>
    refine .secret fun a => ?_
    rcases a with e | _ | s
    · exact hf _
    · exact ih ls
    · exact ih _

/-- To pin an image, secrets are read and the registry is asked. -/
theorem Creating.pin {f : Except ResolveError String → Rest} (hf : ∀ r, Creating k v (f r))
    (image : String) (secrets : List String) :
    Creating k v ((sources.pin ns image secrets).bind f) := by
  unfold PinSources.pin
  split
  · exact hf _
  · next t _ =>
    show Creating k v (Dialogue.bind (Dialogue.bind _ _) f)
    rw [Dialogue.bind_assoc]
    refine Creating.addLogins (fun r => ?_) _ _
    cases r with
    | error e => exact hf _
    | ok ls => exact .digest fun a => hf _

/-- The children of a generation are labelled with its version. -/
@[simp] theorem labels_version (wi : WarmImage) :
    (Generation.labels wi).get? Generation.versionLabel = some wi.metadata.version := by
  simp [Generation.labels, Table.ofList]

/-- Work that makes a child, makes one of the version of its warm image. -/
theorem creating_createChild (c : Context) (k : Key) (wi : WarmImage) (ns : String) :
    Creating k wi.metadata.version ((createChild c wi ns).run.bind (andExpect c k wi ns)) := by
  rw [createChild_run, Dialogue.bind_assoc]
  refine Creating.pin (fun r => ?_) _ _
  cases r with
  | error e => exact .failed _
  | ok image =>
    dsimp only
    split
    · exact .failed _
    · next owner _ =>
      refine .create ?_ (fun e => rfl) rfl (closing_settle c wi ns)
      exact labels_version wi

/-- What work begins with is a matter of what it finds. -/
theorem opening_dialogue (c : Context) (k : Key) : Opening k (found c k) (dialogue c k) := by
  unfold found
  cases hk : k.split with
  | error e =>
    rw [dialogue_of_invalidKey hk]
    exact .invalidKey e
  | ok parts =>
    obtain ⟨ns, name⟩ := parts
    dsimp only
    cases hwi : c.warmImages.get? ns name with
    | none =>
      rw [dialogue_of_absent hk hwi]
      exact .absent (.done _)
    | some wi =>
      dsimp only
      cases hcur : (childrenOf c wi ns).1.isEmpty with
      | true =>
        rw [dialogue_of_childless hk hwi hcur]
        exact .childless (closing_settle c wi ns) (creating_createChild c k wi ns)
      | false =>
        rw [dialogue_of_present hk hwi hcur]
        exact .present (closing_settle c wi ns)

/-- What work begins with is some of its course. -/
theorem Opening.course {f : Finding} {d : Rest} (h : Opening k f d) : Course k d := by
  cases h with
  | invalidKey e => exact .closing (.done _)
  | absent h | present h => exact .observed h
  | childless htrue hfalse => exact .isPending htrue hfalse

/-- What is left of work after an answer. -/
theorem Course.next {q : Query} {next : q.Answer → Rest} (h : Course k (.ask q next))
    (a : q.Answer) :
    Course k (next a) := by
  cases h with
  | observed h | expect h => exact .closing h
  | isPending htrue hfalse =>
    cases a with
    | true => exact .closing htrue
    | false => exact .creating hfalse
  | creating h =>
    cases h with
    | secret h | digest h => exact .creating (h a)
    | create _ herror hok hrest =>
      cases a with
      | error e =>
        rw [herror]
        exact .closing (.done _)
      | ok u =>
        rw [hok]
        exact .expect hrest
  | closing h =>
    cases h with
    | deleteCollection h | publish h => exact .closing (h a)

end

end Prewarm.Reconcile
