import Prewarm.Controller
import Prewarm.Json.Writer

/-!
# A cluster in memory

A cluster that lists what it was given, takes what is created and deleted without changing what it
lists, and fails as it is told to. It takes down every request.
-/

namespace Prewarm.Rehearsal

open Json (text record)

/-- What the cluster lists of a type of object. -/
structure Shelf where
  items : List Json := []
  version : String := ""
  /-- How many of the next listings fail. -/
  failures : Nat := 0

/-- What the cluster was asked. -/
inductive Asked where
  | request (r : Cluster.Request)
  | record (r : Cluster.EventRecord)

/-- The codes with which the cluster refuses requests, where it does. -/
structure Refusals where
  create : Option Nat := none
  delete : Option Nat := none
  event : Option Nat := none
  deriving DecidableEq, Repr

/-- A cluster in memory. -/
structure Api where
  warmImages : Shelf := {}
  daemonSets : Shelf := {}
  refusals : Refusals := {}
  /-- How many objects were created. -/
  created : Nat := 0
  /-- What was asked, the last first. -/
  log : List (Instant × Asked) := []

namespace Api

/-- A reply with a document. -/
def replyWith (code : Nat) (doc : Json) : Cluster.Reply := ⟨code, .ofString doc.render⟩

/-- A reply that refuses a request. -/
def refuse (code : Nat) (reason : String) : Cluster.Reply :=
  replyWith code (record [("kind", text "Status"), ("status", text "Failure"),
    ("reason", text reason), ("code", .nat code)])

/-- Takes down what was asked. -/
def see (a : Api) (now : Instant) (q : Asked) : Api := { a with log := (now, q) :: a.log }

/-- The listing of a shelf, and the shelf after it. -/
def listShelf (s : Shelf) : Cluster.Reply × Shelf :=
  if 0 < s.failures then (refuse 500 "InternalError", { s with failures := s.failures - 1 })
  else
    (replyWith 200 (record [("metadata", record [("resourceVersion", text s.version)]),
      ("items", .array s.items)]), s)

/-- An object as the cluster keeps it: it has got a name and a version. -/
def asKept (a : Api) (body : Json) : Json :=
  match Json.conform DaemonSet.shape body with
  | none => body
  | some j =>
    let d := DaemonSet.ofJson j
    let m := d.metadata
    let name := m.generateName.getD "" ++ toString a.created
    { d with metadata := { m with name := some name, resourceVersion := some "1" } }.toJson

/-- Whether a path ends with the plural of a type. -/
def serves (t : ObjectType) (path : String) : Bool :=
  ("/" ++ t.plural).toList.isSuffixOf path.toList

/-- The reply to a request to read. A watch is opened and stays silent. -/
def read (a : Api) (r : Cluster.Request) : Cluster.Reply × Api :=
  if r.address.query.contains ("watch", "true") then (⟨200, []⟩, a)
  else if serves .warmImage r.address.path then
    let (reply, s) := listShelf a.warmImages
    (reply, { a with warmImages := s })
  else if serves .daemonSet r.address.path then
    let (reply, s) := listShelf a.daemonSets
    (reply, { a with daemonSets := s })
  else (refuse 404 "NotFound", a)

/-- The reply to a request. -/
def reply (now : Instant) (r : Cluster.Request) : StateM Api Cluster.Reply := fun a =>
  let a := a.see now (.request r)
  match r.method with
  | .get => a.read r
  | .delete =>
    (a.refusals.delete.elim
      (replyWith 200 (record [("kind", text "Status"), ("status", text "Success")]))
      (refuse · "Refused"), a)
  | _ =>
    match a.refusals.create with
    | some code => (refuse code "Refused", a)
    | none => (replyWith 201 (a.asKept (r.body.getD .null)), { a with created := a.created + 1 })

/-- The reply to the record of an event. -/
def replyToRecord (now : Instant) (r : Cluster.EventRecord) : StateM Api Cluster.Reply := fun a =>
  (a.refusals.event.elim (replyWith 201 (record [("metadata", record [])])) (refuse · "Refused"),
    a.see now (.record r))

/-- The cluster in memory answers requests; there are no registries. -/
def host : Host Api where
  reply := reply
  replyToRecord := replyToRecord
  replyOfRegistry _ _ := return none

end Api

end Prewarm.Rehearsal
