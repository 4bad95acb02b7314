/-!
The settings that drive every decision: label keys, names of excluded objects, tracked kinds and
volatile fields. The defaults are the conventions of the Rook operator.
-/

namespace ReconcileTrigger

namespace Settings

structure Labels where
  doNotReconcileKey : String := "do_not_reconcile"
  doNotReconcileValue : String := "true"
  versionKey : String := "ceph_version"
  canaryKey : String := "mon_canary"
  canaryValue : String := "true"
  deriving DecidableEq

/-- Names that keep secondary objects from triggering. Of the configuration objects only the
override triggers when it is updated. -/
structure Exclusions where
  ephemeralStatusPrefix : String := "rook-ceph-osd-"
  ephemeralStatusSuffix : String := "-status"
  overrideConfigName : String := "rook-config-override"
  ignorableSecretNames : List String := ["rook-ceph-config"]
  deriving DecidableEq

structure PrimaryKind where
  kind : String
  tracksUpgrade : Bool := false
  deriving DecidableEq

structure Kinds where
  apiGroup : String := "ceph.rook.io"
  primary : List PrimaryKind :=
    [ { kind := "CephCluster" },
      { kind := "CephBlockPool" },
      { kind := "CephFilesystem", tracksUpgrade := true },
      { kind := "CephNFS", tracksUpgrade := true },
      { kind := "CephObjectStore", tracksUpgrade := true },
      { kind := "CephObjectStoreUser" },
      { kind := "CephObjectRealm" },
      { kind := "CephObjectZoneGroup" },
      { kind := "CephObjectZone" },
      { kind := "CephRBDMirror", tracksUpgrade := true } ]
  configKind : String := "ConfigMap"
  secretKind : String := "Secret"
  workerKind : String := "Deployment"
  deriving DecidableEq

structure Diff where
  volatileFields : List String := ["status", "metadata"]
  deriving DecidableEq

structure Logging where
  level : String := "info"
  deriving DecidableEq

def Kinds.builtin (k : Kinds) : List String :=
  [k.configKind, k.secretKind, k.workerKind]

end Settings

structure Settings where
  labels : Settings.Labels := {}
  exclusions : Settings.Exclusions := {}
  kinds : Settings.Kinds := {}
  diff : Settings.Diff := {}
  logging : Settings.Logging := {}
  deriving DecidableEq

namespace Settings

def primaryKind? (s : Settings) (kind : String) : Option PrimaryKind :=
  s.kinds.primary.find? (·.kind == kind)

end Settings

end ReconcileTrigger
