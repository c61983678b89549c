import Prewarm.Metadata.Json

/-!
# Parts of pod specifications

The shapes of what several parts of a pod's specification have in common. Every part is a lenient
record whose fields may be `null`; a field that is not listed is passed over.
-/

namespace Prewarm.Pod

open Json (Shape)

/-- A record of texts alone. -/
def texts (names : List String) : Shape := .fields (Shape.each .string names)

/-- A list of texts. -/
def textList : Shape := .list .string

/-- A name. -/
def named : Shape := texts ["name"]

/-- Amounts of resources, each as a text. -/
def amounts : Shape := .table .string

/-- A number of pods, or a share of them as a text. -/
def countOrShare : Shape := .integerOrText (-Nat.pow 2 31) (Nat.pow 2 31 - 1)

/-- A requirement on the value of a key. -/
def requirement : Shape :=
  .fields (Shape.each .string ["key", "operator"] ++ [("values", textList)])

/-- A selector of objects by their labels. -/
def labelSelector : Shape :=
  .fields [("matchExpressions", .list requirement), ("matchLabels", Labels.shape)]

/-- What may be used, and what is asked for. -/
def limits : List (String × Shape) := Shape.each amounts ["limits", "requests"]

/-- What may be used, what is asked for, and claims on devices. -/
def resources : Shape := .fields (("claims", .list (texts ["name", "request"])) :: limits)

/-- A field of the pod itself. -/
def fieldReference : Shape := texts ["apiVersion", "fieldPath"]

/-- A limit or a request of a container. -/
def resourceReference : Shape := texts ["containerName", "divisor", "resource"]

end Prewarm.Pod
