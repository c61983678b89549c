import Prewarm.Pod.Basic

/-!
# Containers of pods

The shapes of containers and of what they hold: their environment, their probes and their rights.
-/

namespace Prewarm.Pod

open Json (Shape)

/-- A name and a value. -/
def pair : Shape := texts ["name", "value"]

/-- A key of a named object. -/
def keyOf : Shape := .fields (("optional", .bool) :: Shape.each .string ["key", "name"])

/-- A variable of the environment. -/
def envVariable : Shape :=
  .fields (
    ("valueFrom", .fields (
      Shape.each keyOf ["configMapKeyRef", "secretKeyRef"] ++
      [("fieldRef", fieldReference), ("resourceFieldRef", resourceReference)])) ::
    Shape.each .string ["name", "value"])

/-- Variables taken from a named object. -/
def envVariables : Shape :=
  let source : Shape := .fields [("name", .string), ("optional", .bool)]
  .fields (("prefix", .string) :: Shape.each source ["configMapRef", "secretRef"])

/-- The ways to run something in a container or to ask it something. -/
def actions : List (String × Shape) :=
  [("exec", .fields [("command", textList)]),
    ("httpGet", .fields (
      [("httpHeaders", .list pair), ("port", countOrShare)] ++
      Shape.each .string ["host", "path", "scheme"])),
    ("tcpSocket", .fields [("host", .string), ("port", countOrShare)])]

/-- What is done when a container starts or stops. -/
def handler : Shape := .fields (("sleep", .fields [("seconds", .int64)]) :: actions)

/-- A test of a container that is repeated. -/
def probe : Shape :=
  .fields (
    actions ++
    [("grpc", .fields [("port", .int32), ("service", .string)]),
      ("terminationGracePeriodSeconds", .int64)] ++
    Shape.each .int32 ["failureThreshold", "initialDelaySeconds", "periodSeconds",
      "successThreshold", "timeoutSeconds"])

/-- The rights that a pod and a container have in common. -/
def rights : List (String × Shape) :=
  Shape.each (texts ["localhostProfile", "type"]) ["appArmorProfile", "seccompProfile"] ++
  Shape.each .int64 ["runAsGroup", "runAsUser"] ++
  [("runAsNonRoot", .bool), ("seLinuxOptions", texts ["level", "role", "type", "user"]),
    ("windowsOptions", .fields (
      ("hostProcess", .bool) ::
      Shape.each .string ["gmsaCredentialSpec", "gmsaCredentialSpecName", "runAsUserName"]))]

/-- The rights of a container. -/
def containerRights : Shape :=
  .fields (
    rights ++
    Shape.each .bool ["allowPrivilegeEscalation", "privileged", "readOnlyRootFilesystem"] ++
    [("capabilities", .fields (Shape.each textList ["add", "drop"])), ("procMount", .string)])

/-- Where a container listens. -/
def endpoint : Shape :=
  .fields (
    Shape.each .int32 ["containerPort", "hostPort"] ++
    Shape.each .string ["hostIP", "name", "protocol"])

/-- A volume at a place in a container. -/
def mount : Shape :=
  .fields (
    ("readOnly", .bool) ::
    Shape.each .string ["mountPath", "mountPropagation", "name", "recursiveReadOnly", "subPath",
      "subPathExpr"])

/-- The fields of a container. -/
def containerFields : List (String × Shape) :=
  Shape.each textList ["args", "command"] ++
  Shape.each .bool ["stdin", "stdinOnce", "tty"] ++
  Shape.each .string ["image", "imagePullPolicy", "name", "restartPolicy",
    "terminationMessagePath", "terminationMessagePolicy", "workingDir"] ++
  Shape.each probe ["livenessProbe", "readinessProbe", "startupProbe"] ++
  [("env", .list envVariable), ("envFrom", .list envVariables),
    ("lifecycle", .fields (Shape.each handler ["postStart", "preStop"])),
    ("ports", .list endpoint), ("resizePolicy", .list (texts ["resourceName", "restartPolicy"])),
    ("resources", resources), ("securityContext", containerRights),
    ("volumeDevices", .list (texts ["devicePath", "name"])), ("volumeMounts", .list mount)]

/-- A container. -/
def container : Shape := .fields containerFields

/-- A container that joins a pod that runs. -/
def ephemeralContainer : Shape := .fields (("targetContainerName", .string) :: containerFields)

end Prewarm.Pod
