import Prewarm.Cluster.Calls

/-!
# Recording events

An event is created the first time; when the same happens to the same object again, the event
becomes a series that counts how often. An event whose recording fails is not remembered.
-/

namespace Prewarm.Cluster

open Json (Shape)

/-- What makes two events the same. -/
structure EventIdentity where
  about : ObjectReference
  type : EventType
  reason : String
  deriving DecidableEq

/-- One who records events. -/
structure Recorder where
  /-- The name under which events are recorded. -/
  controller : String
  /-- Each event that was recorded, as it was the first time, and how often. -/
  recorded : Table EventIdentity (Event × Nat) := .empty

/-- A record of an event: where it goes, and how often it was seen if more than once. -/
structure EventRecord where
  ns : String
  series : Option Nat
  controller : String
  about : ObjectReference
  event : Event
  deriving DecidableEq

/-- Where a record is sent. The cluster gives an event a name of its own, which begins with the name
of the object; only the record of a series asks for the event by that name. -/
def EventRecord.address? (r : EventRecord) : Option Address :=
  let place := "/apis/events.k8s.io/v1/namespaces/" ++ r.ns ++ "/events"
  let name := r.about.name.getD r.controller ++ "."
  Address.to? (if r.series.isSome then place ++ "/" ++ name else place) []

namespace Recorder

/-- What is done for the controller when an event is recorded. -/
def action : String := "Reconcile"

/-- The record of an event that happens now. What was said the first time stands. -/
def next (r : Recorder) (about : ObjectReference) (e : Event) : EventRecord :=
  let ns := about.ns.getD "default"
  match r.recorded.get? ⟨about, e.type, e.reason⟩ with
  | none => ⟨ns, none, r.controller, about, e⟩
  | some (first, n) => ⟨ns, some (n + 1), r.controller, about, first⟩

/-- Remembers a record that was accepted. -/
def accepted (r : Recorder) (rec : EventRecord) : Recorder :=
  let identity := ⟨rec.about, rec.event.type, rec.event.reason⟩
  { r with recorded := r.recorded.insert identity (rec.event, rec.series.getD 1) }

/-- The shape of an event that the cluster keeps. -/
def eventShape : Shape :=
  GroupVersionKind.shape ⟨"events.k8s.io", "v1", "Event"⟩ (
    Shape.each .string ["action", "note", "reason", "reportingController", "reportingInstance",
      "type"] ++
    Shape.each Timestamp.shape ["deprecatedFirstTimestamp", "deprecatedLastTimestamp",
      "eventTime"] ++
    Shape.each ObjectReference.shape ["regarding", "related"] ++
    [("deprecatedCount", .int32),
      ("deprecatedSource", .fields (Shape.each .string ["component", "host"])),
      ("series", .fields [("count", .int32), ("lastObservedTime", Timestamp.shape)])])

/-- What the reply to a record comes to. -/
def take (r : Recorder) (rec : EventRecord) (reply : Reply) :
    Except ClusterError Unit × Recorder :=
  match reply.read eventShape with
  | .ok _ => (.ok (), r.accepted rec)
  | .error e => (.error e, r)

/-- Records an event that happens now. Nothing is sent to an address that is void. -/
def publish (r : Recorder) (about : ObjectReference) (e : Event) :
    Dialogue EventRecord (fun _ => Reply) (Except ClusterError Unit × Recorder) :=
  let rec_ := r.next about e
  match rec_.address? with
  | none => .done (.error .unreadable, r)
  | some _ => .ask rec_ (fun reply => .done (r.take rec_ reply))

end Recorder

end Prewarm.Cluster
