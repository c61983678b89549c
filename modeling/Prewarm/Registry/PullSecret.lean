import Prewarm.Base64
import Prewarm.Json.Reader
import Prewarm.Json.Shape
import Prewarm.Registry.Login

/-!
# Pull secrets

A pull secret holds logins for registries in a JSON document, in one of two layouts. A document
that is not well-formed as a whole adds no login; an entry without a usable login adds none and
leaves the others alone. The user and the password are two fields of an entry or stand together in
a third one, in base64 with a colon between them.
-/

namespace Prewarm

/-- What a secret holds, under names, if it holds anything. -/
structure Secret where
  data : Option (Table String Bytes)

/-- What is written about one registry. -/
structure LoginEntry where
  username : Option String := none
  password : Option String := none
  /-- User and password in base64. -/
  auth : Option String := none
  deriving DecidableEq

namespace LoginEntry

/-- The login that a text in base64 writes. The user ends at the first colon. -/
def decode? (auth : String) : Option Login := do
  let octets ← Base64.decode (Text.trim auth.toList)
  let plain ← Bytes.toString? octets
  let (username, password) ← Text.cutFirst ':' plain.toList
  some ⟨String.ofList username, String.ofList password⟩

/-- The login of an entry, if it has a usable one. -/
def login? (e : LoginEntry) : Option Login :=
  match e.username, e.password with
  | some u, some p => some ⟨u, p⟩
  | _, _ => e.auth.bind decode?

/-- The shape of an entry. -/
def shape : Json.Shape :=
  .strict (["username", "password", "auth"].map (fun k => (k, .assumed, .nullable .string)))

/-- The entry that a record of its shape holds. -/
def ofJson (j : Json) : LoginEntry where
  username := j.textAt? "username"
  password := j.textAt? "password"
  auth := j.textAt? "auth"

end LoginEntry

namespace PullSecret

/-- The shape of the entries for registries. Of two for one registry the later stands. -/
def entriesShape : Json.Shape := .table LoginEntry.shape

/-- The shape of a document of the first layout, which has the entries in a field. -/
def wrappedShape : Json.Shape := .strict [("auths", .assumed, entriesShape)]

/-- The entries that a record of their shape holds. -/
def entriesOf (j : Json) : Table String LoginEntry :=
  .ofList (j.fields.map (fun (k, v) => (k, .ofJson v)))

/-- The entries of a secret, none if it has no document or its document is malformed. -/
def entries (s : Secret) : Table String LoginEntry :=
  let data := s.data.getD .empty
  match data.get? ".dockerconfigjson" with
  | some doc =>
    match (Json.Document.ofBytes doc).read wrappedShape with
    | .ok j => (j.field? "auths").elim .empty entriesOf
    | .error _ => .empty
  | none =>
    match data.get? ".dockercfg" with
    | some doc =>
      match (Json.Document.ofBytes doc).read entriesShape with
      | .ok j => entriesOf j
      | .error _ => .empty
    | none => .empty

/-- The usable logins of a secret, in the order of their registries. -/
def logins (s : Secret) : List (String × Login) :=
  ((entries s).sorted (fun a b => decide (a ≤ b))).filterMap
    (fun (registry, e) => e.login?.map (fun l => (registry, l)))

end PullSecret

/-- The logins with those of a secret, each in place of the one its registry may have had. -/
def Logins.addSecret (ls : Logins) (s : Secret) : Logins :=
  (PullSecret.logins s).foldl (fun ls (registry, l) => ls.insert registry l) ls

end Prewarm
