import Prewarm.DaemonSet
import Prewarm.Pod.Template
import Prewarm.Scheme.Json

/-!
# Daemon sets as JSON

The spelling of a daemon set in the cluster's documents. A daemon set that is read has to be
well-formed throughout, but only its metadata is kept.
-/

namespace Prewarm

open Json (Shape text record optional)

/-- A list of texts as an array. -/
def texts (ts : List String) : Json := .array (ts.map text)

/-- A record with nothing but a name. -/
def named (name : String) : Json := record [("name", text name)]

/-- Amounts as a record. -/
def Amounts.toJson (a : Amounts) : Json := record [("cpu", text a.cpu), ("memory", text a.memory)]

/-- A volume in a container as a record. -/
def VolumeMount.toJson (m : VolumeMount) : Json :=
  record [("mountPath", text m.path), ("name", text m.volume)]

/-- A container as a record. What it may use is what it asks for. -/
def Container.toJson (c : Container) : Json :=
  record <|
    [("args", texts c.args)] ++
    optional "command" (c.command.map texts) ++
    [("image", text c.image)] ++
    optional "imagePullPolicy" (c.pullPolicy.map text) ++
    [("name", text c.name),
      ("resources", record [("limits", c.amounts.toJson), ("requests", c.amounts.toJson)]),
      ("volumeMounts", .array (c.mounts.map VolumeMount.toJson))]

/-- A volume that is empty when a pod starts, as a record. -/
def emptyVolume (name : String) : Json := record [("emptyDir", record []), ("name", text name)]

/-- The pods of a daemon set as a record. -/
def PodTemplate.toJson (t : PodTemplate) : Json :=
  record
    [("metadata", record [("labels", t.labels.toJson)]),
      ("spec", record <|
        [("containers", .array (t.containers.map Container.toJson))] ++
        optional "imagePullSecrets" (t.pullSecrets.map (fun ss => .array (ss.map named))) ++
        [("initContainers", .array (t.initContainers.map Container.toJson)),
          ("volumes", .array (t.volumes.map emptyVolume))])]

/-- What a daemon set runs as a record. -/
def DaemonSetSpec.toJson (s : DaemonSetSpec) : Json :=
  record
    [("selector", record [("matchLabels", s.matchLabels.toJson)]),
      ("template", s.template.toJson)]

namespace DaemonSet

/-- A daemon set as a record. -/
def toJson (d : DaemonSet) : Json :=
  record <|
    [("apiVersion", text ObjectType.daemonSet.kind.apiVersion),
      ("kind", text ObjectType.daemonSet.kind.kind),
      ("metadata", d.metadata.toJson)] ++
    optional "spec" (d.spec.map DaemonSetSpec.toJson)

/-- The shape of what a daemon set runs. -/
def specShape : Shape :=
  .fields [("minReadySeconds", .int32), ("revisionHistoryLimit", .int32),
    ("selector", Pod.labelSelector), ("template", Pod.template),
    ("updateStrategy", .fields [
      ("rollingUpdate", .fields (Shape.each Pod.countOrShare ["maxSurge", "maxUnavailable"])),
      ("type", .string)])]

/-- The shape of what the cluster says of a daemon set. -/
def statusShape : Shape :=
  .fields (
    Shape.each .int32 ["collisionCount", "currentNumberScheduled", "desiredNumberScheduled",
      "numberAvailable", "numberMisscheduled", "numberReady", "numberUnavailable",
      "updatedNumberScheduled"] ++
    [("conditions", .list (.fields (("lastTransitionTime", Timestamp.shape) ::
        Shape.each .string ["message", "reason", "status", "type"]))),
      ("observedGeneration", .int64)])

/-- The shape of a daemon set. A kind that is named has to be that of a daemon set. -/
def shape : Shape :=
  ObjectType.daemonSet.kind.shape [("spec", specShape), ("status", statusShape)]

/-- The daemon set that a record of its shape holds, without what it runs. -/
def ofJson (j : Json) : DaemonSet := { metadata := .ofField "metadata" j }

end DaemonSet

end Prewarm
