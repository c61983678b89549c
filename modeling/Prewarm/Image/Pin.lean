import Prewarm.Registry.Resolver

/-!
# Pinning images

An image by a tag is pinned to the digest its registry has for it now, so that every node gets the
same content. Secrets are read and the registry is asked only for a tag; any other image is taken as
pinned already.
-/

namespace Prewarm

/-- Those who are asked when an image is pinned. -/
structure PinSources (m : Type → Type) where
  /-- Reads the secret with a name in a namespace, if there is one. -/
  secret : String → String → m (Except ClusterError (Option Secret))
  /-- Asks for the digest of a tag. -/
  digest : TagReference → Logins → m (Except ResolveError String)

namespace PinSources

variable {m : Type → Type} [Monad m]

/-- The logins in secrets of a namespace, on top of others. A secret that is not there adds none. -/
def addLogins (src : PinSources m) (ns : String) :
    Logins → List String → m (Except ClusterError Logins)
  | ls, [] => return .ok ls
  | ls, name :: names => do
    match ← src.secret ns name with
    | .error e => return .error e
    | .ok none => src.addLogins ns ls names
    | .ok (some s) => src.addLogins ns (ls.addSecret s) names

/-- The image by a digest, with the logins in secrets of a namespace. -/
def pin (src : PinSources m) (ns image : String) (secrets : List String) :
    m (Except ResolveError String) :=
  match TagReference.parse image with
  | none => return .ok image
  | some t => do
    match ← src.addLogins ns .anonymous secrets with
    | .error e => return .error (.logins e)
    | .ok ls => return (← src.digest t ls).map t.withDigest

end PinSources

end Prewarm
