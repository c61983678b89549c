import Prewarm.Selector
import Prewarm.WarmImage

/-!
# Generations of children

The children of a warm image carry two labels: who controls them, the identifier of the warm image,
and the version of the warm image they were made for. The children of one version are a generation.
-/

namespace Prewarm.Generation

/-- The label that holds the identifier of the warm image. -/
def controllerLabel : String := "controller"

/-- The label that holds the version of the warm image. -/
def versionLabel : String := "version"

/-- The labels of a child of the current generation. -/
def labels (wi : WarmImage) : Labels :=
  .ofList [(controllerLabel, wi.metadata.identity), (versionLabel, wi.metadata.version)]

/-- The children of the current generation. -/
def currentSelector (wi : WarmImage) : Selector :=
  [.equals controllerLabel wi.metadata.identity, .equals versionLabel wi.metadata.version]

/-- The children of every generation. -/
def ownedSelector (wi : WarmImage) : Selector :=
  [.equals controllerLabel wi.metadata.identity]

/-- The children of every generation but the current one. -/
def staleSelector (wi : WarmImage) : Selector :=
  [.equals controllerLabel wi.metadata.identity, .differs versionLabel wi.metadata.version]

end Prewarm.Generation
