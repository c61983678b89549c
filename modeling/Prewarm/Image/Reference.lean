import Prewarm.Text.Blank
import Prewarm.Text.Split

/-!
# References to images by a tag

A reference `registry/repository:tag` names an image that may change. The registry may be left out,
and so may the tag. Registry and repository keep their spelling, so that a reference by a digest
that is made from one reads like it.
-/

namespace Prewarm

/-- An image by a tag. -/
structure TagReference where
  /-- The registry as it was written, if it was. -/
  registry : Option String
  repository : String
  tag : String
  deriving DecidableEq, Repr

namespace TagReference

/-- The registry of references that name none. -/
def defaultRegistry : String := "index.docker.io"

/-- The tag of references that name none. -/
def defaultTag : String := "latest"

/-- Whether the text before the first slash names a registry: a host with a dot or a port, or the
local host. -/
def isRegistry (s : List Char) : Bool :=
  s.contains '.' || s.contains ':' || s == "localhost".toList

/-- The registry, if a reference names one, and the rest of the reference. -/
def cutRegistry (s : List Char) : Option (List Char) × List Char :=
  match Text.cutFirst '/' s with
  | some (host, rest) => if isRegistry host then (some host, rest) else (none, s)
  | none => (none, s)

/-- The repository and the tag. A colon before the last slash does not begin a tag. -/
def cutTag (s : List Char) : List Char × List Char :=
  match Text.cutLast '/' s with
  | some (path, name) =>
    match Text.cutLast ':' name with
    | some (name, tag) => (path ++ '/' :: name, tag)
    | none => (s, defaultTag.toList)
  | none => (Text.cutLast ':' s).getD (s, defaultTag.toList)

/-- Whether a character can stand in a repository. -/
def isRepositoryChar (c : Char) : Bool :=
  c.isLower || c.isDigit || c == '.' || c == '_' || c == '-'

/-- Whether a text is a repository: parts between slashes, none of them empty. -/
def isRepository (s : List Char) : Bool :=
  (Text.parts '/' s).all (fun p => p ≠ [] && p.all isRepositoryChar)

/-- Whether a character can begin a tag. -/
def isTagStart (c : Char) : Bool := c.isAlphanum || c == '_'

/-- Whether a text is a tag: at most 128 characters, with no mark but an underscore at its
beginning. -/
def isTag : List Char → Bool
  | [] => false
  | c :: s =>
    isTagStart c && s.length < 128 && s.all (fun c => isTagStart c || c == '.' || c == '-')

/-- The reference by a tag that a text is, if it is one. A text with an at sign is a reference by a
digest or none at all. -/
def parse (image : String) : Option TagReference :=
  let s := image.toList
  if s.contains '@' || s.any Text.isBlank then none
  else
    let (registry, rest) := cutRegistry s
    let (repository, tag) := cutTag rest
    if isRepository repository && isTag tag then
      some ⟨registry.map String.ofList, String.ofList repository, String.ofList tag⟩
    else none

/-- The host of the registry. -/
def registryHost (t : TagReference) : String :=
  match t.registry with
  | none => defaultRegistry
  | some r => if r = "docker.io" then defaultRegistry else r

/-- The path of the repository in the registry. The default registry has its own images in a
library. -/
def repositoryPath (t : TagReference) : String :=
  if t.registryHost = defaultRegistry ∧ ¬ t.repository.toList.contains '/' then
    "library/" ++ t.repository
  else t.repository

/-- The reference without its tag. -/
def context (t : TagReference) : String :=
  match t.registry with
  | some r => r ++ "/" ++ t.repository
  | none => t.repository

/-- The reference to the same repository by a digest. -/
def withDigest (t : TagReference) (digest : String) : String := t.context ++ "@" ++ digest

/-- The reference as a text. -/
def text (t : TagReference) : String := t.context ++ ":" ++ t.tag

end TagReference

end Prewarm
