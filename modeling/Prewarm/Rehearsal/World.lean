import Prewarm.Pool

/-!
# A world to rehearse in

The surroundings of the workers held in memory: the two local stores, secrets, a registry and a
cluster that answer as they are told to, and a log of what is asked of them. Work on keys is either
the work on warm images or follows a script.
-/

namespace Prewarm.Rehearsal

/-- How one piece of scripted work goes. -/
inductive Verdict where
  | ok
  | transient
  | drop
  | panic
  deriving DecidableEq, Repr

/-- The outcome of scripted work. -/
def Verdict.outcome : Verdict → Outcome
  | ok => .success
  | transient => .failure .requeue
  | drop => .failure .drop
  | panic => .crash

/-- One piece of scripted work: how many milliseconds it takes, and how it goes. -/
structure Act where
  millis : Nat := 0
  verdict : Verdict := .ok
  deriving DecidableEq, Repr

/-- What is seen of the workers. -/
inductive Effect where
  /-- A secret is read. -/
  | secret (ns name : String)
  /-- A registry is asked for the digest of a tag. -/
  | digest (image : String) (anonymous : Bool) (login : Option Login)
  /-- A child is created in a namespace. -/
  | create (ns : String) (child : DaemonSet)
  /-- Children in a namespace are deleted. -/
  | deleteCollection (ns : String) (selector : Selector) (propagation : Propagation)
  /-- An event about an object is published. -/
  | publish (about : ObjectReference) (event : Event)
  /-- Someone keeps a key, or has found that there are none any more. -/
  | kept (g : GetterId) (k : Option Key)
  /-- Scripted work on a key begins. -/
  | start (k : Key)
  /-- Scripted work on a key ends. -/
  | finish (k : Key) (v : Verdict)

/-- The answers of the cluster and the registry. -/
structure Replies where
  create : Except ClusterError Unit := .ok ()
  delete : Except ClusterError Unit := .ok ()
  publish : Except ClusterError Unit := .ok ()
  /-- The failure of reading a secret, if it fails. -/
  secretFault : Option ClusterError := none
  digest : Except ResolveError String := .ok "sha256:0"

/-- The surroundings of the workers. -/
structure World where
  warmImages : Store WarmImage := {}
  daemonSets : Store DaemonSet := {}
  scheme : Scheme
  sleeperImage : String
  expectations : Expectations := .standard
  /-- The scripted work on each key, if the work is scripted. -/
  script : Option (Table Key (List Act)) := none
  replies : Replies := {}
  secrets : Table (String × String) Secret := .empty
  /-- The children that were created, the first first. -/
  created : List DaemonSet := []
  /-- What was seen, the last first, each with its instant. -/
  log : List (Instant × Effect) := []

namespace World

/-- Takes down what is seen. -/
def see (w : World) (now : Instant) (e : Effect) : World := { w with log := (now, e) :: w.log }

/-- The child as the cluster keeps it: it has got a name, a namespace and a version. -/
def asKept (w : World) (ns : String) (child : DaemonSet) : DaemonSet :=
  let m := child.metadata
  { child with
    metadata := { m with
      name := some (m.generateName.getD "" ++ toString w.created.length)
      ns := some ns
      resourceVersion := some "1" } }

/-- The answer to what work on a key asks, and what it leaves. -/
def answer (now : Instant) : (q : Reconcile.Query) → StateM World q.Answer
  | .isPending k v => fun w =>
    let (b, e) := w.expectations.isPending k v now
    (b, { w with expectations := e })
  | .expect k v => fun w => ((), { w with expectations := w.expectations.expect k v now })
  | .observed k => fun w => ((), { w with expectations := w.expectations.observed k })
  | .secret ns name => fun w =>
    let w := w.see now (.secret ns name)
    match w.replies.secretFault with
    | some e => (.error e, w)
    | none => (.ok (w.secrets.get? (ns, name)), w)
  | .digest t logins => fun w =>
    let w := w.see now (.digest t.text logins.isEmpty (logins.get? t.registryHost))
    (w.replies.digest, w)
  | .create ns child => fun w =>
    let w := w.see now (.create ns child)
    match w.replies.create with
    | .ok () => (.ok (), { w with created := w.created ++ [w.asKept ns child] })
    | .error e => (.error e, w)
  | .deleteCollection ns s p => fun w =>
    (w.replies.delete, w.see now (.deleteCollection ns s p))
  | .publish about e => fun w => (w.replies.publish, w.see now (.publish about e))

/-- What work on a key reads. -/
def context (w : World) : Reconcile.Context :=
  ⟨w.scheme, w.warmImages, w.daemonSets, w.sleeperImage⟩

/-- Works on a warm image at once. -/
def reconcile (now : Instant) (k : Key) (w : World) : Except Reconcile.Failure Unit × World :=
  ((Reconcile.dialogue w.context k).run (answer now)).run w

/-- The next piece of scripted work on a key. Work that is not scripted goes well at once. -/
def nextAct (k : Key) (script : Table Key (List Act)) : Act × Table Key (List Act) :=
  match script.get? k with
  | some (a :: as) => (a, script.insert k as)
  | _ => ({}, script)

/-- Ends a piece of scripted work. -/
def endAct (now : Instant) (k : Key) (v : Verdict) (w : World) : Outcome × World :=
  (v.outcome, w.see now (.finish k v))

/-- Begins work on a key. -/
def start (now : Instant) (k : Key) (w : World) : Progress Verdict × World :=
  match w.script with
  | none =>
    let (r, w) := w.reconcile now k
    (.ended (.ofResult r), w)
  | some script =>
    let (a, rest) := nextAct k script
    let w := { w.see now (.start k) with script := some rest }
    if a.millis = 0 then
      let (o, w) := endAct now k a.verdict w
      (.ended o, w)
    else (.resting ⟨now.nanos + (Duration.ofMillis a.millis).nanos⟩ a.verdict, w)

end World

/-- The work in this world. -/
def craft : Craft World Verdict where
  start := World.start
  resume now k v w := w.endAct now k v
  kept now g k w := w.see now (.kept g k)

end Prewarm.Rehearsal
