import Prewarm.Metadata.Json
import Prewarm.Scheme

/-!
# Documents of warm images

A warm image as the cluster stores it. Reading asks for the metadata and for an image; the kind that
a document names is not looked at, and is written as that of a warm image. What the controller has
no use for, the status and the upkeep in the metadata, is kept beside the warm image so that a
document can be written again.
-/

namespace Prewarm

/-- A warm image with all that its document holds. -/
structure WarmImage.Document where
  warmImage : WarmImage
  /-- The upkeep in its metadata. -/
  upkeep : List (String × Json)
  /-- Whether there is a status. It has no fields. -/
  status : Bool

namespace WarmImage.Document

open Json (Shape)

/-- The shape of a specification. -/
def specShape : Shape :=
  .strict [("image", .required, .string),
    ("imagePullSecrets", .assumed, .nullable (.fields [("name", .string)]))]

/-- The shape of a document. -/
def shape : Shape :=
  .strict [("metadata", .required, Metadata.shape), ("spec", .required, specShape),
    ("status", .optional, .nullable (.strict []))]

/-- The document that a record of its shape holds. The name of a secret is empty if it is not
written. -/
def ofJson (j : Json) : Document :=
  let metadata := (j.field? "metadata").getD .null
  let spec := (j.field? "spec").getD .null
  { warmImage :=
      { metadata := .ofJson metadata
        image := spec.textAt "image"
        pullSecret := (spec.field? "imagePullSecrets").map (Json.textAt "name") }
    upkeep := Metadata.upkeep metadata
    status := (j.field? "status").isSome }

/-- A document as a record. -/
def toJson (d : Document) : Json :=
  let secret := d.warmImage.pullSecret.map (fun s => Json.record [("name", .text s)])
  .record <|
    [("apiVersion", .text ObjectType.warmImage.kind.apiVersion),
      ("kind", .text ObjectType.warmImage.kind.kind),
      ("metadata", .record (d.upkeep ++ d.warmImage.metadata.fields)),
      ("spec", .record <|
        [("image", .text d.warmImage.image)] ++ Json.optional "imagePullSecrets" secret)] ++
    Json.optional "status" (if d.status then some (.record []) else none)

end WarmImage.Document

end Prewarm
