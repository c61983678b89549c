import Prewarm.Json
import Prewarm.Scheme

/-!
# The definition of warm images

The document that teaches the cluster what a warm image is: its names, and the shape of what is
written about one.
-/

namespace Prewarm.WarmImage.Manifest

open Json (text record optional)

/-- The shape of a value. -/
inductive Shape where
  | text (description : String)
  /-- An object with properties, each with its name and whether it has to be there. -/
  | object (description : Option String) (title : Option String) (nullable : Bool)
      (properties : List (String × Bool × Shape))

mutual
/-- A shape as a document. -/
def Shape.toJson : Shape → Json
  | .text description => record [("description", text description), ("type", text "string")]
  | .object description title nullable properties =>
    let fields := propertyFields properties
    let required := (properties.filter (·.2.1)).map (fun p => text p.1)
    record <|
      optional "description" (description.map text) ++
      (if nullable then [("nullable", .bool true)] else []) ++
      (if properties.isEmpty then [] else [("properties", record fields)]) ++
      (if required.isEmpty then [] else [("required", .array required)]) ++
      optional "title" (title.map text) ++
      [("type", text "object")]

/-- The properties of an object as fields. -/
def propertyFields : List (String × Bool × Shape) → List (String × Json)
  | [] => []
  | (name, _, shape) :: ps => (name, shape.toJson) :: propertyFields ps
end

/-- Where the cluster's documentation has a page. -/
def docsPage (page : String) : String := "https://" ++ "kubernetes.io" ++ "/docs/" ++ page

/-- The shape of a reference to a secret. -/
def secretShape : Shape :=
  .object (some "Secret holding credentials for pulling `image`.") none true
    [("name", true, .text
      ("Name of the referent. This field is effectively required, but due to backwards " ++
        "compatibility is allowed to be empty. Instances of this type with an empty value here " ++
        "are almost certainly wrong. More info: " ++
        docsPage "concepts/overview/working-with-objects/names/#names"))]

/-- The shape of what is asked for. -/
def specShape : Shape :=
  .object (some "An image that should be kept pulled on every eligible node.") none false
    [("image", true, .text
        ("Image reference, either a tag (resolved to a digest before use) or a digest.")),
      ("imagePullSecrets", false, secretShape)]

/-- The shape of a warm image. -/
def shape : Shape :=
  .object (some "Auto-generated derived type for WarmImageSpec via `CustomResource`")
    (some ObjectType.warmImage.kind.kind) false
    [("spec", true, specShape), ("status", false, .object none none true [])]

/-- The names of warm images. -/
def names : Json :=
  record [("categories", .array []), ("kind", text ObjectType.warmImage.kind.kind),
    ("plural", text ObjectType.warmImage.plural), ("shortNames", .array []),
    ("singular", text "warmimage")]

/-- The one version of warm images, which is served and stored. -/
def version : Json :=
  record [("additionalPrinterColumns", .array []),
    ("name", text ObjectType.warmImage.kind.version),
    ("schema", record [("openAPIV3Schema", shape.toJson)]),
    ("served", .bool true), ("storage", .bool true),
    ("subresources", record [("status", record [])])]

/-- The definition of warm images. -/
def document : Json :=
  record [("apiVersion", text "apiextensions.k8s.io/v1"),
    ("kind", text "CustomResourceDefinition"),
    ("metadata", record
      [("name", text (ObjectType.warmImage.plural ++ "." ++ ObjectType.warmImage.kind.group))]),
    ("spec", record
      [("group", text ObjectType.warmImage.kind.group), ("names", names),
        ("scope", text "Namespaced"), ("versions", .array [version])])]

end Prewarm.WarmImage.Manifest
