import Prewarm.Cluster.Error
import Prewarm.Dialogue
import Prewarm.Registry.Challenge
import Prewarm.Registry.PullSecret
import Prewarm.Registry.Status
import Prewarm.Sha256

/-!
# Asking a registry for a digest

Which content a tag stands for at the moment is asked of its registry in a dialogue of requests and
replies. The registry is asked for the head of the manifest; if it wants to know who asks, the head
is asked for once more with an answer to its challenge. The digest is in the head, or else is taken
of the manifest itself. There are four requests at most: two for the head, one for a token, and one
for the manifest.
-/

namespace Prewarm

/-- Why a tag has no digest. -/
inductive ResolveError where
  /-- A request got no reply, or none that can be read. -/
  | transport
  /-- The reply to a request refuses it. -/
  | status (code : Nat) (url : String)
  /-- A registry's challenge cannot be answered. -/
  | challenge (url : String)
  /-- There was no token in the reply to a request for one. -/
  | missingToken
  /-- The logins for the registry could not be read. -/
  | logins (e : ClusterError)
  deriving DecidableEq, Repr

/-- What is said of a tag that has no digest. -/
def ResolveError.message : ResolveError → String
  | transport => "registry request failed"
  | status code url => "registry returned " ++ Status.text code ++ " for " ++ url
  | challenge url => "unsupported auth challenge from " ++ url
  | missingToken => "token endpoint returned no token"
  | logins e => "loading pull credentials failed: " ++ e.message

namespace Registry

/-- What tells a registry who asks. -/
inductive Authorization where
  | basic (login : Login)
  | bearer (token : String)
  deriving DecidableEq

/-- The value of the header that tells who asks. -/
def Authorization.text : Authorization → String
  | basic l =>
    "Basic " ++ String.ofList (Base64.encode (Bytes.ofString (l.username ++ ":" ++ l.password)))
  | bearer token => "Bearer " ++ token

/-- Whether a text can be the value of a header: it has no controls but tabs. -/
def isHeaderValue (s : String) : Bool :=
  s.toList.all (fun c => (0x20 ≤ c.toNat && c.toNat ≠ 0x7f) || c == '\t')

/-- What a request asks for. -/
inductive Target where
  /-- The head of a manifest. -/
  | head
  /-- A manifest. -/
  | manifest
  /-- A token. -/
  | token
  deriving DecidableEq, Repr

/-- A request. -/
structure Request where
  target : Target
  url : String
  query : List (String × String)
  authorization : Option Authorization
  deriving DecidableEq

/-- A reply. Of two headers with one name the first counts. -/
structure Reply where
  code : Nat
  headers : List (String × Bytes)
  body : Bytes

/-- The value of a header of a reply, if it is there and is a text of visible ASCII. -/
def Reply.header? (r : Reply) (name : String) : Option String := do
  let (_, v) ← r.headers.find? (fun h => Challenge.lower h.1.toList == name.toList)
  if v.all (fun b => (0x20 ≤ b && b < 0x7f) || b == 0x09) then Bytes.toString? v else none

/-- A dialogue of requests and replies. A request may get no reply. -/
abbrev Talk := ExceptT ResolveError (Dialogue Request (fun _ => Option Reply))

/-- Sends a request. One whose header cannot be written is not sent. -/
def send (r : Request) : Talk Reply :=
  if r.authorization.all (fun a => isHeaderValue a.text) then
    ExceptT.mk (.ask r fun
      | some reply => .done (.ok reply)
      | none => .done (.error .transport))
  else throw .transport

/-- The media types of manifests. -/
def manifestTypes : String :=
  "application/vnd.oci.image.index.v1+json, application/vnd.oci.image.manifest.v1+json, " ++
    "application/vnd.docker.distribution.manifest.list.v2+json, " ++
    "application/vnd.docker.distribution.manifest.v2+json"

/-- The media types a request accepts. -/
def Target.accept : Target → String
  | head | manifest => manifestTypes
  | token => "*/*"

/-- Whether a host is reached without encryption: the local host and local names. -/
def isLocal (host : String) : Bool :=
  let bare := host.toList.takeWhile (· ≠ ':')
  bare == "localhost".toList || "127.".toList.isPrefixOf bare || ".local".toList.isSuffixOf bare

/-- Where the manifest of a tag is. -/
def manifestUrl (t : TagReference) : String :=
  (if isLocal t.registryHost then "http" else "https") ++ "://" ++ t.registryHost ++ "/v2/" ++
    t.repositoryPath ++ "/manifests/" ++ t.tag

/-- The shape of a document with a token. -/
def tokenShape : Json.Shape :=
  .strict (["token", "access_token"].map (fun k => (k, .optional, .nullable .string)))

/-- The token in a document, under one of two names. -/
def tokenOf? (doc : Json.Document) : Option (Option String) :=
  (doc.read tokenShape).toOption.map (fun j => (j.textAt? "token").or (j.textAt? "access_token"))

/-- Asks for a token where a challenge says. -/
def askToken (c : Challenge) (url : String) (t : TagReference) (login : Option Login) :
    Talk Authorization := do
  let some realm := c.params.get? "realm" | throw (.challenge url)
  let scope := (c.params.get? "scope").getD ("repository:" ++ t.repositoryPath ++ ":pull")
  let service := (c.params.get? "service").toList.map (fun s => ("service", s))
  let reply ← send ⟨.token, realm, ("scope", scope) :: service, login.map .basic⟩
  if ¬ Status.isSuccess reply.code then throw (.status reply.code realm)
  let some token := tokenOf? (.ofBytes reply.body) | throw .transport
  match token.filter (· ≠ "") with
  | some token => return .bearer token
  | none => throw .missingToken

/-- Answers the challenge of a registry. -/
def authorize (reply : Reply) (url : String) (t : TagReference) (login : Option Login) :
    Talk Authorization := do
  let some header := reply.header? "www-authenticate" | throw (.challenge url)
  let c := Challenge.parse header
  if c.scheme = "basic" then
    match login with
    | some l => return .basic l
    | none => throw (.status 401 url)
  else if c.scheme = "bearer" then askToken c url t login
  else throw (.challenge url)

/-- Asks for the head of a manifest, and again if the registry wants to know who asks. With it goes
what has told the registry. -/
def askHead (url : String) (t : TagReference) (login : Option Login) :
    Talk (Reply × Option Authorization) := do
  let first := login.map .basic
  let reply ← send ⟨.head, url, [], first⟩
  if reply.code = 401 then
    let a ← authorize reply url t login
    return (← send ⟨.head, url, [], some a⟩, some a)
  else return (reply, first)

/-- The digest of a document. -/
def digestOf (body : Bytes) : String :=
  "sha256:" ++ String.ofList (Sha256.hex (Sha256.digest body))

/-- Asks the registry of a tag for the digest of its manifest. -/
def resolve (t : TagReference) (logins : Logins) : Talk String := do
  let url := manifestUrl t
  let (head, authorization) ← askHead url t (logins.get? t.registryHost)
  if ¬ Status.isSuccess head.code then throw (.status head.code url)
  match head.header? "docker-content-digest" with
  | some digest => return digest
  | none =>
    let reply ← send ⟨.manifest, url, [], authorization⟩
    if ¬ Status.isSuccess reply.code then throw (.status reply.code url)
    return digestOf reply.body

end Registry

end Prewarm
