import Prewarm.Cluster.Address
import Prewarm.Cluster.Error
import Prewarm.Dialogue
import Prewarm.Json.Reader
import Prewarm.Json.Shape
import Prewarm.Scheme

/-!
# Requests to the cluster

What the cluster is asked over HTTP, where it serves the objects of a type, and how its replies are
taken. A reply with a code of 400 or more refuses the request, and a status in its body says why.
-/

namespace Prewarm.Cluster

/-- What a request does. -/
inductive Method where
  | get
  | post
  | patch
  | delete
  deriving DecidableEq, Repr

/-- A request to the cluster. -/
structure Request where
  method : Method
  address : Address
  body : Option Json := none

/-- A reply of the cluster. -/
structure Reply where
  code : Nat
  body : Bytes

/-- Where the objects of a type are served, all of them or those in a namespace. -/
def collection (t : ObjectType) (ns : Option String) : String :=
  let g := t.kind
  let root := if g.group = "" then "/api/" else "/apis/"
  let place := ns.elim "" (fun ns => "namespaces/" ++ ns ++ "/")
  root ++ g.apiVersion ++ "/" ++ place ++ t.plural

/-- What the cluster says of a request it refuses. -/
structure Refusal where
  code : Nat
  reason : String
  message : String
  deriving DecidableEq, Repr

namespace Refusal

/-- A whole number that can be a code. -/
def codeShape : Json.Shape := .integer 0 (Nat.pow 2 16 - 1)

/-- The shape of a status that refuses. -/
def shape : Json.Shape :=
  .strict [("status", .required, .string), ("message", .assumed, .string),
    ("reason", .assumed, .string), ("code", .required, codeShape)]

/-- The refusal that a record of its shape holds. -/
def ofJson (j : Json) : Refusal where
  code := ((j.field? "code").bind Json.asInt?).elim 0 Int.toNat
  reason := j.textAt "reason"
  message := j.textAt "message"

/-- The refusal that a document is. -/
def ofDocument? (d : Json.Document) : Option Refusal := (d.read shape).toOption.map ofJson

end Refusal

/-- Why a reply holds no document. -/
inductive NoDocument where
  | refused (r : Refusal)
  | unreadable

/-- The failure that a reply without a document is. -/
def NoDocument.toError : NoDocument → ClusterError
  | refused r => .refused r.code
  | unreadable => .unreadable

/-- The document in a reply, which has to be a text. A refusal that is not written out has the code
of the reply. -/
def Reply.document (r : Reply) : Except NoDocument Json.Document :=
  match Bytes.toString? r.body with
  | none => .error .unreadable
  | some _ =>
    let doc := Json.Document.ofBytes r.body
    if 400 ≤ r.code ∧ r.code < 600 then
      .error (.refused ((Refusal.ofDocument? doc).getD ⟨r.code, "Failed to parse error data", ""⟩))
    else .ok doc

/-- What a shape takes and keeps of a document. -/
def readDocument (s : Json.Shape) (doc : Json.Document) : Except ClusterError Json :=
  (doc.read s).mapError (fun _ => .unreadable)

/-- What a shape takes and keeps of a reply. -/
def Reply.read (s : Json.Shape) (r : Reply) : Except ClusterError Json :=
  match r.document with
  | .error e => .error e.toError
  | .ok doc => readDocument s doc

/-- A call of the cluster: at most one request, and what its reply comes to. -/
abbrev Call (α : Type) := Dialogue Request (fun _ => Reply) (Except ClusterError α)

/-- Sends a request to an address and takes its reply. Nothing is sent to an address that is
void. -/
def send {α : Type} (method : Method) (address : Option Address) (body : Option Json)
    (take : Reply → Except ClusterError α) : Call α :=
  match address with
  | none => .done (.error .unreadable)
  | some a => .ask ⟨method, a, body⟩ (fun reply => .done (take reply))

end Prewarm.Cluster
