import Prewarm.Pod.Basic

/-!
# Volumes of pods

The shapes of the volumes a pod may have, by the kind of storage behind them.
-/

namespace Prewarm.Pod

open Json (Shape)

/-- A record of texts, and of truth values. -/
def textsAndFlags (names flags : List String) : Shape :=
  .fields (Shape.each .string names ++ Shape.each .bool flags)

/-- A volume that needs a secret to be mounted, which a field names. -/
def withSecret (secret : String) (fields : List (String × Shape)) : Shape :=
  .fields ((secret, named) :: ("readOnly", .bool) :: fields)

/-- A file for a key. -/
def keyFile : Shape := .fields (("mode", .int32) :: Shape.each .string ["key", "path"])

/-- Files for the keys of a named object. -/
def keyFiles (name : String) : List (String × Shape) :=
  [("items", .list keyFile), (name, .string), ("optional", .bool)]

/-- A file for a field of the pod. -/
def fieldFile : Shape :=
  .fields [("fieldRef", fieldReference), ("mode", .int32), ("path", .string),
    ("resourceFieldRef", resourceReference)]

/-- What a claim on storage asks for. -/
def claim : Shape :=
  .fields (
    Shape.each .string ["storageClassName", "volumeAttributesClassName", "volumeMode",
      "volumeName"] ++
    [("accessModes", textList), ("dataSource", texts ["apiGroup", "kind", "name"]),
      ("dataSourceRef", texts ["apiGroup", "kind", "name", "namespace"]),
      ("resources", .fields limits), ("selector", labelSelector)])

/-- One of the sources of a volume that joins several. -/
def projection : Shape :=
  .fields [
    ("clusterTrustBundle", .fields (
      Shape.each .string ["name", "path", "signerName"] ++
      [("labelSelector", labelSelector), ("optional", .bool)])),
    ("configMap", .fields (keyFiles "name")),
    ("downwardAPI", .fields [("items", .list fieldFile)]),
    ("secret", .fields (keyFiles "name")),
    ("serviceAccountToken", .fields (
      ("expirationSeconds", .int64) :: Shape.each .string ["audience", "path"]))]

/-- The kinds of storage that belong to the pod or to the cluster. -/
def innerStorage : List (String × Shape) :=
  let mode : String × Shape := ("defaultMode", .int32)
  [("configMap", .fields (mode :: keyFiles "name")),
    ("downwardAPI", .fields [mode, ("items", .list fieldFile)]),
    ("emptyDir", texts ["medium", "sizeLimit"]),
    ("ephemeral", .fields [("volumeClaimTemplate",
      .fields [("metadata", Metadata.shape), ("spec", claim)])]),
    ("gitRepo", texts ["directory", "repository", "revision"]),
    ("hostPath", texts ["path", "type"]),
    ("image", texts ["pullPolicy", "reference"]),
    ("persistentVolumeClaim", textsAndFlags ["claimName"] ["readOnly"]),
    ("projected", .fields [mode, ("sources", .list projection)]),
    ("secret", .fields (mode :: keyFiles "secretName"))]

/-- The kinds of storage from outside the cluster. -/
def outerStorage : List (String × Shape) :=
  [("awsElasticBlockStore", .fields (
      [("partition", .int32), ("readOnly", .bool)] ++ Shape.each .string ["fsType", "volumeID"])),
    ("azureDisk",
      textsAndFlags ["cachingMode", "diskName", "diskURI", "fsType", "kind"] ["readOnly"]),
    ("azureFile", textsAndFlags ["secretName", "shareName"] ["readOnly"]),
    ("cephfs", withSecret "secretRef" (
      ("monitors", textList) :: Shape.each .string ["path", "secretFile", "user"])),
    ("cinder", withSecret "secretRef" (Shape.each .string ["fsType", "volumeID"])),
    ("csi", withSecret "nodePublishSecretRef" (
      ("volumeAttributes", .table .string) :: Shape.each .string ["driver", "fsType"])),
    ("fc", .fields (
      [("fsType", .string), ("lun", .int32), ("readOnly", .bool)] ++
      Shape.each textList ["targetWWNs", "wwids"])),
    ("flexVolume", withSecret "secretRef" (
      ("options", .table .string) :: Shape.each .string ["driver", "fsType"])),
    ("flocker", texts ["datasetName", "datasetUUID"]),
    ("gcePersistentDisk", .fields (
      [("partition", .int32), ("readOnly", .bool)] ++ Shape.each .string ["fsType", "pdName"])),
    ("glusterfs", textsAndFlags ["endpoints", "path"] ["readOnly"]),
    ("iscsi", withSecret "secretRef" (
      Shape.each .bool ["chapAuthDiscovery", "chapAuthSession"] ++
      Shape.each .string ["fsType", "initiatorName", "iqn", "iscsiInterface", "targetPortal"] ++
      [("lun", .int32), ("portals", textList)])),
    ("nfs", textsAndFlags ["path", "server"] ["readOnly"]),
    ("photonPersistentDisk", texts ["fsType", "pdID"]),
    ("portworxVolume", textsAndFlags ["fsType", "volumeID"] ["readOnly"]),
    ("quobyte", textsAndFlags ["group", "registry", "tenant", "user", "volume"] ["readOnly"]),
    ("rbd", withSecret "secretRef" (
      ("monitors", textList) :: Shape.each .string ["fsType", "image", "keyring", "pool", "user"])),
    ("scaleIO", withSecret "secretRef" (
      ("sslEnabled", .bool) ::
      Shape.each .string ["fsType", "gateway", "protectionDomain", "storageMode", "storagePool",
        "system", "volumeName"])),
    ("storageos",
      withSecret "secretRef" (Shape.each .string ["fsType", "volumeName", "volumeNamespace"])),
    ("vsphereVolume", texts ["fsType", "storagePolicyID", "storagePolicyName", "volumePath"])]

/-- A volume. -/
def volume : Shape := .fields (("name", .string) :: innerStorage ++ outerStorage)

end Prewarm.Pod
