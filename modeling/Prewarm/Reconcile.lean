import Prewarm.DaemonSet
import Prewarm.Expectations
import Prewarm.Image.Pin
import Prewarm.Store.Select

/-!
# Reconciling a warm image

Work on a key brings the cluster closer to what the warm image with the key asks for: one child of
its current generation and none of an older one. What the local stores hold is looked at when work
begins; everything else is asked in a dialogue (`Query`), so that what the work does is a matter of
the two stores and the answers alone. A failure ends the work, and says whether trying again can
help.
-/

namespace Prewarm

/-- How the children of an object go when it is deleted. -/
inductive Propagation where
  /-- They go before it. -/
  | foreground
  /-- They go after it. -/
  | background
  /-- They stay. -/
  | orphan
  deriving DecidableEq, Repr

/-- Whether an event is as it should be. -/
inductive EventType where
  | normal
  | warning
  deriving DecidableEq, Repr

/-- Something that happened to an object. -/
structure Event where
  type : EventType
  reason : String
  message : String
  deriving DecidableEq, Repr

/-- The event after work on a warm image that went well. -/
def Event.synced : Event := ⟨.normal, "Synced", "WarmImage synced successfully"⟩

namespace Reconcile

/-- What work on a key asks of others. -/
inductive Query where
  /-- Whether a child of a key is expected, for a version of the parent. -/
  | isPending (k : Key) (version : String)
  /-- Takes down that a child of a key is expected. -/
  | expect (k : Key) (version : String)
  /-- Takes down that no child of a key is expected. -/
  | observed (k : Key)
  /-- Reads the secret with a name in a namespace. -/
  | secret (ns name : String)
  /-- Asks a registry for the digest of a tag. -/
  | digest (t : TagReference) (logins : Logins)
  /-- Creates a child in a namespace. -/
  | create (ns : String) (child : DaemonSet)
  /-- Deletes the children in a namespace that a selector accepts. -/
  | deleteCollection (ns : String) (selector : Selector) (propagation : Propagation)
  /-- Takes down what happened to an object. -/
  | publish (about : ObjectReference) (event : Event)

/-- The type of the answer to a query. -/
abbrev Query.Answer : Query → Type
  | isPending .. => Bool
  | expect .. | observed .. => Unit
  | secret .. => Except ClusterError (Option Secret)
  | digest .. => Except ResolveError String
  | create .. | deleteCollection .. | publish .. => Except ClusterError Unit

/-- Why work on a key has failed. -/
inductive Failure where
  | invalidKey (e : InvalidKey)
  | cluster (e : ClusterError)
  | resolve (e : ResolveError)
  | scheme (e : Unregistered)
  deriving DecidableEq, Repr

/-- What is said of work that has failed. -/
def Failure.message : Failure → String
  | invalidKey e => "invalid key: " ++ e.message
  | cluster e => e.message
  | resolve e => "image resolution failed: " ++ e.message
  | scheme e => e.message

/-- What becomes of a key after work on it has failed. -/
inductive Disposition where
  /-- It is worked on again. -/
  | requeue
  /-- It is forgotten, since work on it can never go well. -/
  | drop
  deriving DecidableEq, Repr

/-- What becomes of a key after a failure. -/
def Failure.disposition : Failure → Disposition
  | invalidKey _ | scheme _ => .drop
  | cluster _ | resolve _ => .requeue

/-- The dialogue of work on a key. -/
abbrev Talk := Dialogue Query Query.Answer

/-- Work on a key, which may fail. -/
abbrev Work := ExceptT Failure Talk

/-- Asks a question. -/
def ask (q : Query) : Work q.Answer := ExceptT.lift (.question q)

/-- What an answer holds, unless it is a failure. -/
def orFail {ε α : Type} (cause : ε → Failure) : Except ε α → Work α
  | .ok a => return a
  | .error e => throw (cause e)

/-- The secrets and the registry as work on a key asks them. -/
def sources : PinSources Talk where
  secret ns name := .question (Query.secret ns name)
  digest t logins := .question (Query.digest t logins)

/-- What work on a key reads and does not change. -/
structure Context where
  scheme : Scheme
  warmImages : Store WarmImage
  daemonSets : Store DaemonSet
  /-- The image with the program that sleeps. -/
  sleeperImage : String

/-- Makes the child of the current generation of a warm image, with its image pinned. -/
def createChild (c : Context) (wi : WarmImage) (ns : String) : Work Unit := do
  let pinned ← ExceptT.lift (sources.pin ns wi.image wi.pullSecret.toList)
  let image ← orFail .resolve pinned
  let owner ← orFail .scheme (c.scheme.controllerReference .warmImage wi.metadata)
  let created ← ask (.create ns (.ofWarmImage wi image c.sleeperImage owner))
  orFail .cluster created

/-- The children of a warm image in a namespace: those of the current generation, and the rest. -/
def childrenOf (c : Context) (wi : WarmImage) (ns : String) : List DaemonSet × List DaemonSet :=
  (c.daemonSets.select (some ns) (Generation.ownedSelector wi)).partition
    (fun d => (Generation.currentSelector wi).accepts d.metadata.labelMap)

/-- Sees to it that there is a child of the current generation. None is made while one is expected,
and more than one are left alone. -/
def ensureChild (c : Context) (k : Key) (wi : WarmImage) (ns : String)
    (current : List DaemonSet) : Work Unit := do
  if current.isEmpty then
    if ← ask (.isPending k wi.metadata.version) then return
    createChild c wi ns
    ask (.expect k wi.metadata.version)
  else ask (.observed k)

/-- Deletes the children of older generations, if there are any. -/
def deleteStale (wi : WarmImage) (ns : String) (stale : List DaemonSet) : Work Unit := do
  if ¬ stale.isEmpty then
    let deleted ← ask (.deleteCollection ns (Generation.staleSelector wi) .foreground)
    orFail .cluster deleted

/-- Takes down that work on a warm image went well. It does not matter if that fails. -/
def publishSynced (c : Context) (wi : WarmImage) : Work Unit := do
  let about ← orFail .scheme (c.scheme.objectReference .warmImage wi.metadata)
  let _ ← ask (.publish about .synced)

/-- Work on the warm image with a key. -/
def work (c : Context) (k : Key) : Work Unit := do
  let (ns, name) ← orFail .invalidKey k.split
  match c.warmImages.get? ns name with
  | none => ask (.observed k)
  | some wi =>
    let (current, stale) := childrenOf c wi ns
    ensureChild c k wi ns current
    deleteStale wi ns stale
    publishSynced c wi

/-- Work on a key as a dialogue that ends with its outcome. -/
def dialogue (c : Context) (k : Key) : Talk (Except Failure Unit) := (work c k).run

end Reconcile

end Prewarm
