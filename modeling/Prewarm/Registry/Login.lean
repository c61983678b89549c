import Prewarm.Image.Reference
import Prewarm.Table
import Prewarm.Text.Quoted

/-!
# Logins

The logins for registries, filed under the host of the registry. A registry is spelled in many ways,
with or without a scheme and a path; `registryKey` takes the host out of them and gives the default
registry one name.
-/

namespace Prewarm

/-- A user and the password. -/
structure Login where
  username : String
  password : String
  deriving DecidableEq

/-- A login as it may be shown, which is without its password. -/
def Login.shown (l : Login) : String :=
  "BasicAuth \x7b username: " ++ Text.quoted l.username ++ ", password: " ++
    Text.quoted "<redacted>" ++ " \x7d"

/-- The name under which the registry with a host is filed. -/
def registryOfHost (host : List Char) : String :=
  if String.ofList host ∈ ["docker.io", "registry-1.docker.io", "index.docker.io"] then
    TagReference.defaultRegistry
  else String.ofList host

/-- The name under which a registry is filed: its host, without scheme and path. -/
def registryKey (registry : String) : String :=
  let bare := Text.dropLeading "http://".toList
    (Text.dropLeading "https://".toList registry.toList)
  registryOfHost (bare.takeWhile (· ≠ '/'))

/-- Logins for registries. Access to a registry without one is anonymous. -/
structure Logins where
  entries : Table String Login := .empty

namespace Logins

/-- No login for any registry. -/
def anonymous : Logins := {}

/-- The logins with one for a registry, in place of the one it may have had. -/
def insert (ls : Logins) (registry : String) (l : Login) : Logins :=
  ⟨ls.entries.insert (registryKey registry) l⟩

/-- The login for a registry. -/
def get? (ls : Logins) (registry : String) : Option Login := ls.entries.get? (registryKey registry)

/-- Whether access to every registry is anonymous. -/
def isEmpty (ls : Logins) : Bool := ls.entries.entries.isEmpty

end Logins

end Prewarm
