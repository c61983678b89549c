import Prewarm.Json.Shape
import Prewarm.Metadata
import Prewarm.Time.Calendar

/-!
# Metadata as JSON

The spelling of metadata in the cluster's documents. A field that is not set is not written.
Metadata holds more than the controller has a use for: when the object was created, who manages
which of its fields, and the like. This upkeep is read, so that a malformed object is refused, and
can be kept beside the metadata.
-/

namespace Prewarm

open Json (Shape text record optional)

/-- A time stamp, in universal time and whole seconds. -/
def Timestamp.shape : Shape := .text (fun s => (parse s).map Timestamp.text)

/-- Labels as a record. -/
def Labels.toJson (labels : Labels) : Json :=
  record ((labels.sorted (fun a b => decide (a ≤ b))).map (fun (k, v) => (k, text v)))

/-- The shape of labels. -/
def Labels.shape : Shape := .table .string

/-- The labels that a record of their shape holds. -/
def Labels.ofJson (j : Json) : Labels :=
  .ofList (j.fields.filterMap (fun (k, v) => v.asText?.map (fun t => (k, t))))

namespace OwnerReference

/-- A reference to an owner as a record. -/
def toJson (r : OwnerReference) : Json :=
  record <|
    [("apiVersion", text r.apiVersion)] ++
    optional "blockOwnerDeletion" (r.blockOwnerDeletion.map .bool) ++
    optional "controller" (r.controller.map .bool) ++
    [("kind", text r.kind), ("name", text r.name), ("uid", text r.uid)]

/-- The shape of a reference to an owner. -/
def shape : Shape :=
  .fields (Shape.each .string ["apiVersion", "kind", "name", "uid"] ++
    Shape.each .bool ["blockOwnerDeletion", "controller"])

/-- The reference that a record of its shape holds. A text that is not written is empty. -/
def ofJson (j : Json) : OwnerReference where
  apiVersion := j.textAt "apiVersion"
  kind := j.textAt "kind"
  name := j.textAt "name"
  uid := j.textAt "uid"
  controller := (j.field? "controller").bind Json.asBool?
  blockOwnerDeletion := (j.field? "blockOwnerDeletion").bind Json.asBool?

end OwnerReference

namespace Metadata

/-- The fields of metadata that are set. -/
def fields (m : Metadata) : List (String × Json) :=
  optional "generateName" (m.generateName.map text) ++
  optional "labels" (m.labels.map Labels.toJson) ++
  optional "name" (m.name.map text) ++
  optional "namespace" (m.ns.map text) ++
  optional "ownerReferences" (m.owners.map (fun os => .array (os.map OwnerReference.toJson))) ++
  optional "resourceVersion" (m.resourceVersion.map text) ++
  optional "uid" (m.uid.map text)

/-- Metadata as a record. -/
def toJson (m : Metadata) : Json := record m.fields

/-- The shape of an entry of the record of who manages which fields. -/
def managerShape : Shape :=
  .fields (Shape.each .string ["apiVersion", "fieldsType", "manager", "operation", "subresource"] ++
    [("fieldsV1", .any), ("time", Timestamp.shape)])

/-- The shapes of the fields that the controller has no use for. -/
def upkeepShapes : List (String × Shape) :=
  Shape.each Timestamp.shape ["creationTimestamp", "deletionTimestamp"] ++
  Shape.each .int64 ["deletionGracePeriodSeconds", "generation"] ++
  [("annotations", Labels.shape), ("finalizers", .list .string),
    ("managedFields", .list managerShape), ("selfLink", .string)]

/-- The shape of metadata. -/
def shape : Shape :=
  .fields (Shape.each .string ["generateName", "name", "namespace", "resourceVersion", "uid"] ++
    [("labels", Labels.shape), ("ownerReferences", .list OwnerReference.shape)] ++ upkeepShapes)

/-- The metadata that a record of its shape holds. -/
def ofJson (j : Json) : Metadata where
  name := j.textAt? "name"
  ns := j.textAt? "namespace"
  generateName := j.textAt? "generateName"
  uid := j.textAt? "uid"
  resourceVersion := j.textAt? "resourceVersion"
  labels := (j.field? "labels").map Labels.ofJson
  owners := (j.field? "ownerReferences").map (fun os => os.items.map OwnerReference.ofJson)

/-- The upkeep in a record of the shape of metadata. -/
def upkeep (j : Json) : List (String × Json) :=
  j.fields.filter (fun (k, _) => upkeepShapes.any (fun u => u.1 == k))

/-- The metadata in a field of a record. -/
def ofField (name : String) (j : Json) : Metadata := ((j.field? name).map ofJson).getD {}

end Metadata

end Prewarm
