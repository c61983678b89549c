import Prewarm.Generation
import Prewarm.Scheme

/-!
# Daemon sets

A daemon set runs one pod on every eligible node. The child of a warm image is a daemon set whose
pod is made of the image: a first container leaves a program that sleeps in a shared volume, and the
image's own container runs that program, so that the node holds the image and the pod does nothing.
-/

namespace Prewarm

/-- A volume at a place in a container. -/
structure VolumeMount where
  volume : String
  path : String
  deriving DecidableEq, Repr

/-- Amounts of processor time and memory. -/
structure Amounts where
  cpu : String
  memory : String
  deriving DecidableEq, Repr

/-- A container of a pod. What it may use is what it asks for. -/
structure Container where
  name : String
  image : String
  pullPolicy : Option String := none
  command : Option (List String) := none
  args : List String
  amounts : Amounts
  mounts : List VolumeMount
  deriving DecidableEq, Repr

/-- The pods of a daemon set. -/
structure PodTemplate where
  labels : Labels
  initContainers : List Container
  containers : List Container
  /-- The names of the secrets the images are pulled with. -/
  pullSecrets : Option (List String)
  /-- The names of the volumes, which are empty when a pod starts. -/
  volumes : List String
  deriving DecidableEq

/-- What a daemon set runs: the pods with the labels of its selector are its own. -/
structure DaemonSetSpec where
  matchLabels : Labels
  template : PodTemplate
  deriving DecidableEq

/-- A daemon set. -/
structure DaemonSet where
  metadata : Metadata
  spec : Option DaemonSetSpec := none
  deriving DecidableEq, Inhabited

instance : Resource DaemonSet := ⟨DaemonSet.metadata⟩

namespace DaemonSet

/-- The volume and the container of the program that sleeps. -/
def sleeperName : String := "the-sleeper"

/-- Where the shared volume is. -/
def dropPath : String := "/drop/"

/-- Where the program that sleeps is left. -/
def sleeperPath : String := "/drop/sleeper"

/-- What a container that only sleeps needs. -/
def sleeperAmounts : Amounts := ⟨"1m", "20M"⟩

/-- The shared volume in a container. -/
def dropMount : VolumeMount := ⟨sleeperName, dropPath⟩

/-- The container that leaves the program that sleeps in the shared volume. -/
def sleeperContainer (sleeperImage : String) : Container where
  name := sleeperName
  image := sleeperImage
  args := ["--mode", "copy", "--to", sleeperPath]
  amounts := sleeperAmounts
  mounts := [dropMount]

/-- The container of the image, which sleeps. -/
def imageContainer (image : String) : Container where
  name := "the-image"
  image := image
  pullPolicy := some "Always"
  command := some [sleeperPath]
  args := ["--mode", "sleep"]
  amounts := sleeperAmounts
  mounts := [dropMount]

/-- The child of a warm image for its current generation, with the image already resolved. -/
def ofWarmImage (wi : WarmImage) (image sleeperImage : String) (owner : OwnerReference) :
    DaemonSet where
  metadata :=
    { generateName := some wi.metadata.displayName
      ns := wi.metadata.ns
      labels := some (Generation.labels wi)
      owners := some [owner] }
  spec := some
    { matchLabels := Generation.labels wi
      template :=
        { labels := Generation.labels wi
          initContainers := [sleeperContainer sleeperImage]
          containers := [imageContainer image]
          pullSecrets := wi.pullSecret.map (fun s => [s])
          volumes := [sleeperName] } }

end DaemonSet

end Prewarm
