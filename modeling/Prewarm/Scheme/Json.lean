import Prewarm.Metadata.Json
import Prewarm.Scheme

/-!
# Kinds and references as JSON

The spelling of a kind and of a reference to an object in the cluster's documents.
-/

namespace Prewarm

open Json (Shape text record optional)

/-- The shape of an object of a kind with some fields beside its metadata. If the kind is named, it
has to be that one. -/
def GroupVersionKind.shape (g : GroupVersionKind) (fields : List (String × Shape)) : Shape :=
  .lenient (
    [("apiVersion", .exactly g.apiVersion), ("kind", .exactly g.kind)] ++
    (("metadata", Metadata.shape) :: fields).map (fun (k, s) => (k, .nullable s)))

/-- A reference to an object as a record. -/
def ObjectReference.toJson (r : ObjectReference) : Json :=
  record <|
    optional "apiVersion" (r.apiVersion.map text) ++
    optional "kind" (r.kind.map text) ++
    optional "name" (r.name.map text) ++
    optional "namespace" (r.ns.map text) ++
    optional "resourceVersion" (r.resourceVersion.map text) ++
    optional "uid" (r.uid.map text)

/-- The shape of a reference to an object. -/
def ObjectReference.shape : Shape :=
  .fields (Shape.each .string ["apiVersion", "fieldPath", "kind", "name", "namespace",
    "resourceVersion", "uid"])

end Prewarm
