import Prewarm.Table
import Prewarm.Text.Numeral

/-!
# Metadata of objects

What every object of the cluster carries beside its content: its name and namespace, the identifier
it got when it was created, the version of its last change, its labels, and the objects that own
it. A field that is not set differs from one that is empty.
-/

namespace Prewarm

/-- Labels of an object. -/
abbrev Labels := Table String String

/-- A reference from an object to one that owns it. -/
structure OwnerReference where
  apiVersion : String
  kind : String
  name : String
  uid : String
  /-- Whether the owner manages the object. -/
  controller : Option Bool
  /-- Whether the owner cannot be removed before the object. -/
  blockOwnerDeletion : Option Bool
  deriving DecidableEq, Inhabited

/-- The metadata of an object. -/
structure Metadata where
  name : Option String := none
  ns : Option String := none
  /-- What the server is to build a name from if there is none. -/
  generateName : Option String := none
  uid : Option String := none
  resourceVersion : Option String := none
  labels : Option Labels := none
  owners : Option (List OwnerReference) := none
  deriving DecidableEq, Inhabited

namespace Metadata

/-- The labels of an object, none if the field is not set. -/
def labelMap (m : Metadata) : Labels := m.labels.getD .empty

/-- The name of an object, or what its name is to be built from. -/
def displayName (m : Metadata) : String := (m.name.or m.generateName).getD ""

/-- The version of an object, empty if the field is not set. -/
def version (m : Metadata) : String := m.resourceVersion.getD ""

/-- The identifier of an object, empty if the field is not set. -/
def identity (m : Metadata) : String := m.uid.getD ""

/-- The version of an object as a number, if it is one of 64 bits. -/
def versionNumber? (m : Metadata) : Option Nat := m.resourceVersion.bind Text.readWord

end Metadata

/-- A kind of object, which has metadata. -/
class Resource (α : Type) where
  metadata : α → Metadata

export Resource (metadata)

end Prewarm
