import Prewarm.WarmImage

/-!
# Kinds of objects

A scheme says under which group, version and kind the cluster knows a type of object. It is built
once and is the only place that turns an object into a reference to it.
-/

namespace Prewarm

/-- The types of objects the controller handles. -/
inductive ObjectType where
  | warmImage
  | daemonSet
  | secret
  deriving DecidableEq, Repr

/-- The name of a kind: its group, which is empty for the core kinds, its version and the kind. -/
structure GroupVersionKind where
  group : String
  version : String
  kind : String
  deriving DecidableEq, Repr

/-- The version of a kind, with its group before it if it has one. -/
def GroupVersionKind.apiVersion (g : GroupVersionKind) : String :=
  if g.group = "" then g.version else g.group ++ "/" ++ g.version

namespace ObjectType

/-- The name the cluster has for a type. -/
def kind : ObjectType → GroupVersionKind
  | warmImage => ⟨"mattmoor.io", "v2", "WarmImage"⟩
  | daemonSet => ⟨"apps", "v1", "DaemonSet"⟩
  | secret => ⟨"", "v1", "Secret"⟩

/-- The plural under which the cluster serves a type. -/
def plural : ObjectType → String
  | warmImage => "warmimages"
  | daemonSet => "daemonsets"
  | secret => "secrets"

/-- What messages call a type. -/
def typeName : ObjectType → String
  | warmImage => "warmimage_controller::crd::warm_image::WarmImage"
  | daemonSet => "k8s_openapi::api::apps::v1::DaemonSet"
  | secret => "k8s_openapi::api::core::v1::Secret"

end ObjectType

/-- A type that a scheme does not know. -/
structure Unregistered where
  type : ObjectType
  deriving DecidableEq, Repr

/-- What is said of a type that a scheme does not know. -/
def Unregistered.message (e : Unregistered) : String :=
  "kind for type " ++ e.type.typeName ++ " is not registered"

/-- A reference to an object from outside its namespace. -/
structure ObjectReference where
  apiVersion : Option String := none
  kind : Option String := none
  name : Option String
  ns : Option String
  uid : Option String
  resourceVersion : Option String
  deriving DecidableEq, Repr

/-- The types that are known and the names of their kinds. -/
structure Scheme where
  kinds : Table ObjectType GroupVersionKind

namespace Scheme

/-- The scheme that knows no type. -/
def empty : Scheme := ⟨.empty⟩

/-- The scheme with one more type. -/
def register (s : Scheme) (t : ObjectType) : Scheme := ⟨s.kinds.insert t t.kind⟩

/-- The scheme that knows what the controller writes references to. -/
def forController : Scheme := (empty.register .warmImage).register .daemonSet

/-- The name of the kind of a type. -/
def kindOf (s : Scheme) (t : ObjectType) : Except Unregistered GroupVersionKind :=
  match s.kinds.get? t with
  | some g => .ok g
  | none => .error ⟨t⟩

/-- A reference to an object of a type. -/
def objectReference (s : Scheme) (t : ObjectType) (m : Metadata) :
    Except Unregistered ObjectReference := do
  let g ← s.kindOf t
  return ⟨some g.apiVersion, some g.kind, m.name, m.ns, m.uid, m.resourceVersion⟩

/-- A reference that makes an object of a type the manager of what carries it, and keeps the object
until what carries it is gone. -/
def controllerReference (s : Scheme) (t : ObjectType) (m : Metadata) :
    Except Unregistered OwnerReference := do
  let g ← s.kindOf t
  return ⟨g.apiVersion, g.kind, m.name.getD "", m.identity, some true, some true⟩

end Scheme

end Prewarm
