import Prewarm.Key

/-!
# Warm images

A warm image asks for a container image to be kept on every node that can run it. It may name a
secret with which the image is pulled.
-/

namespace Prewarm

/-- An image to be kept on every eligible node. -/
structure WarmImage where
  metadata : Metadata
  /-- The image, by a tag or by a digest. -/
  image : String
  /-- The name of the secret the image is pulled with. -/
  pullSecret : Option String := none
  deriving DecidableEq, Inhabited

instance : Resource WarmImage := ⟨WarmImage.metadata⟩

end Prewarm
