import Prewarm.Base64
import Prewarm.Cluster.Request
import Prewarm.DaemonSet.Json
import Prewarm.Reconcile
import Prewarm.WarmImage.Document

/-!
# Calls of the cluster

The calls that the controller makes: it creates and deletes children, reads secrets, and lists the
objects of a type.
-/

namespace Prewarm.Cluster

open Json (Shape text record)

/-- A type of object that is listed and watched. -/
class Listed (α : Type) extends Resource α where
  type : ObjectType
  /-- The shape of an object. -/
  shape : Shape
  /-- The object that a record of its shape holds. -/
  ofJson : Json → α

instance : Listed DaemonSet where
  type := .daemonSet
  shape := DaemonSet.shape
  ofJson := DaemonSet.ofJson

instance : Listed WarmImage where
  type := .warmImage
  shape := WarmImage.Document.shape
  ofJson j := (WarmImage.Document.ofJson j).warmImage

/-- Creates a daemon set in a namespace. -/
def create (ns : String) (d : DaemonSet) : Call DaemonSet :=
  send .post (Address.to? (collection .daemonSet (some ns)) []) (some d.toJson)
    (fun reply => (reply.read DaemonSet.shape).map DaemonSet.ofJson)

/-- The name of a propagation. -/
def propagationName : Propagation → String
  | .foreground => "Foreground"
  | .background => "Background"
  | .orphan => "Orphan"

/-- A strict record of texts that may be left out, and of other fields. -/
def statusPart (texts : List String) (others : List (String × Shape)) : Shape :=
  .strict ((Shape.each .string texts ++ others).map (fun (k, s) => (k, .assumed, s)))

/-- The shape of what is said beside a status: the object it is about, and the causes. -/
def detailsShape : Shape :=
  statusPart ["name", "group", "kind", "uid"]
    [("causes", .list (statusPart ["reason", "message", "field"] [])),
      ("retryAfterSeconds", .integer 0 (Nat.pow 2 32 - 1))]

/-- The shape of a status, of success or of failure. -/
def statusShape : Shape :=
  .strict [("status", .assumed, .nullable (.choice ["Success", "Failure"])),
    ("code", .assumed, Refusal.codeShape), ("message", .assumed, .string),
    ("reason", .assumed, .string), ("details", .assumed, .nullable detailsShape)]

/-- The shape of a list of objects. -/
def listShape (object : Shape) : Shape :=
  .extensible
    [("items", .required, .nullable (.list object)),
      ("metadata", .assumed, .fields (
        Shape.each .string ["continue", "resourceVersion", "selfLink"] ++
        [("remainingItemCount", .int64)]))]
    []

/-- The objects in a list, and its version. -/
def listing {α : Type} [Listed α] (j : Json) : List α × String :=
  let objects := (j.field? "items").elim [] Json.items
  let metadata := (j.field? "metadata").getD .null
  (objects.map Listed.ofJson, metadata.textAt "resourceVersion")

/-- Whether a document answers a request to delete: a status, or the objects that go. It has to be
sound throughout. -/
def deleted (doc : Json.Document) : Except ClusterError Unit := do
  let all ← readDocument .any doc
  let isStatus := all.textAt? "kind" = some "Status"
  let _ ← readDocument (if isStatus then statusShape else listShape DaemonSet.shape) doc

/-- Deletes the daemon sets in a namespace that a selector accepts. -/
def deleteCollection (ns : String) (s : Selector) (p : Propagation) : Call Unit :=
  send .delete
    (Address.to? (collection .daemonSet (some ns)) [("labelSelector", s.text)])
    (some (record [("propagationPolicy", text (propagationName p))]))
    (fun reply =>
      match reply.document with
      | .error e => .error e.toError
      | .ok doc => deleted doc)

/-- The shape of a secret. -/
def secretShape : Shape :=
  let octets : Shape := .text (fun s => (Base64.decode s.toList).map (fun _ => s))
  ObjectType.secret.kind.shape
    [("data", .table (.nullable octets)), ("immutable", .bool), ("stringData", .table .string),
      ("type", .string)]

/-- The secret that a record of its shape holds. -/
def secretOf (j : Json) : Secret :=
  let octets (v : Json) : Bytes := (v.asText?.bind (fun s => Base64.decode s.toList)).getD []
  ⟨(j.field? "data").map (fun d => .ofList (d.fields.map (fun (k, v) => (k, octets v))))⟩

/-- Reads a secret, if there is one. A secret without a name is not asked for. -/
def readSecret (ns name : String) : Call (Option Secret) :=
  if name = "" then .done (.error .unreadable)
  else
    send .get (Address.parse? (collection .secret (some ns) ++ "/" ++ name)) none fun reply =>
      match reply.document with
      | .error (.refused r) => if r.reason = "NotFound" then .ok none else .error (.refused r.code)
      | .error .unreadable => .error .unreadable
      | .ok doc => (readDocument secretShape doc).map (fun j => some (secretOf j))

/-- The query for the objects that a selector accepts. One that accepts all is not written. -/
def selectorQuery (s : Selector) : List (String × String) :=
  if s = [] then [] else [("labelSelector", s.text)]

/-- Where the objects of a type are listed, all of them or those in a namespace. -/
def listAddress? (t : ObjectType) (ns : Option String) (s : Selector) : Option Address :=
  Address.to? (collection t ns) (selectorQuery s)

/-- What the reply to a request for a list comes to. -/
def listed {α : Type} [Listed α] (reply : Reply) : Except ClusterError (List α × String) :=
  (reply.read (listShape (Listed.shape α))).map listing

/-- Lists the objects of a type. -/
def list (α : Type) [Listed α] (ns : Option String) (s : Selector) : Call (List α × String) :=
  send .get (listAddress? (Listed.type α) ns s) none listed

end Prewarm.Cluster
