import Prewarm.Selector
import Prewarm.Store

/-!
# Selecting from a store

The objects of a store that are in a namespace, if one is given, and whose labels a selector
accepts. An object without labels has none, and one without a namespace is in no given one.
-/

namespace Prewarm.Store

variable {α : Type} [Resource α]

/-- The objects in a namespace whose labels a selector accepts. -/
def select (s : Store α) (ns : Option String) (selector : Selector) : List α :=
  s.items.values.filter (fun a => isIn ns a && selector.accepts (metadata a).labelMap)

end Prewarm.Store
