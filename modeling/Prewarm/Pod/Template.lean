import Prewarm.Pod.Container
import Prewarm.Pod.Volume

/-!
# Templates of pods

The shapes of the rules by which pods find their nodes, and of the whole specification of a pod.
-/

namespace Prewarm.Pod

open Json (Shape)

/-- The field of what is required of a place. -/
def requiredField : String := "requiredDuringSchedulingIgnoredDuringExecution"

/-- The field of what is preferred in a place. -/
def preferredField : String := "preferredDuringSchedulingIgnoredDuringExecution"

/-- A term about nodes. -/
def nodeTerm : Shape :=
  .fields (Shape.each (.list requirement) ["matchExpressions", "matchFields"])

/-- A term about the pods of a place. -/
def podTerm : Shape :=
  .fields (
    Shape.each labelSelector ["labelSelector", "namespaceSelector"] ++
    Shape.each textList ["matchLabelKeys", "mismatchLabelKeys", "namespaces"] ++
    [("topologyKey", .string)])

/-- The rules about nodes. -/
def nodeAffinity : Shape :=
  .fields [
    (preferredField, .list (.fields [("preference", nodeTerm), ("weight", .int32)])),
    (requiredField, .fields [("nodeSelectorTerms", .list nodeTerm)])]

/-- The rules about the pods of a place. -/
def podAffinity : Shape :=
  .fields [
    (preferredField, .list (.fields [("podAffinityTerm", podTerm), ("weight", .int32)])),
    (requiredField, .list podTerm)]

/-- The rules about places. -/
def affinity : Shape :=
  .fields (("nodeAffinity", nodeAffinity) ::
    Shape.each podAffinity ["podAffinity", "podAntiAffinity"])

/-- A taint of a node that is put up with. -/
def toleration : Shape :=
  .fields (("tolerationSeconds", .int64) ::
    Shape.each .string ["effect", "key", "operator", "value"])

/-- A rule that spreads pods over places. -/
def spread : Shape :=
  .fields (
    Shape.each .int32 ["maxSkew", "minDomains"] ++
    Shape.each .string ["nodeAffinityPolicy", "nodeTaintsPolicy", "topologyKey",
      "whenUnsatisfiable"] ++
    [("labelSelector", labelSelector), ("matchLabelKeys", textList)])

/-- The rights of a pod. -/
def podRights : Shape :=
  .fields (
    rights ++
    Shape.each .string ["fsGroupChangePolicy", "seLinuxChangePolicy", "supplementalGroupsPolicy"] ++
    [("fsGroup", .int64), ("supplementalGroups", .list .int64), ("sysctls", .list pair)])

/-- How a pod looks up names. -/
def nameService : Shape :=
  .fields (("options", .list pair) :: Shape.each textList ["nameservers", "searches"])

/-- The specification of a pod. -/
def spec : Shape :=
  .fields (
    Shape.each .int64 ["activeDeadlineSeconds", "terminationGracePeriodSeconds"] ++
    Shape.each .bool ["automountServiceAccountToken", "enableServiceLinks", "hostIPC",
      "hostNetwork", "hostPID", "hostUsers", "setHostnameAsFQDN", "shareProcessNamespace"] ++
    Shape.each .string ["dnsPolicy", "hostname", "nodeName", "preemptionPolicy",
      "priorityClassName", "restartPolicy", "runtimeClassName", "schedulerName", "serviceAccount",
      "serviceAccountName", "subdomain"] ++
    Shape.each (.list container) ["containers", "initContainers"] ++
    [("affinity", affinity), ("dnsConfig", nameService),
      ("ephemeralContainers", .list ephemeralContainer),
      ("hostAliases", .list (.fields [("hostnames", textList), ("ip", .string)])),
      ("imagePullSecrets", .list named), ("nodeSelector", .table .string), ("os", named),
      ("overhead", amounts), ("priority", .int32),
      ("readinessGates", .list (texts ["conditionType"])),
      ("resourceClaims",
        .list (texts ["name", "resourceClaimName", "resourceClaimTemplateName"])),
      ("resources", resources), ("schedulingGates", .list named), ("securityContext", podRights),
      ("tolerations", .list toleration), ("topologySpreadConstraints", .list spread),
      ("volumes", .list volume)])

/-- A template of pods. -/
def template : Shape := .fields [("metadata", Metadata.shape), ("spec", spec)]

end Prewarm.Pod
