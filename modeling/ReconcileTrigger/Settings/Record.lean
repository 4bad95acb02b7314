import ReconcileTrigger.Json.Shape
import ReconcileTrigger.Settings.Basic

/-!
Settings as records. Every section and every field may be absent and then has its default; a
given list replaces the default list as a whole. How texts, flags and lists are recognized
depends on where the record comes from.
-/

namespace ReconcileTrigger.Settings

open Json (Value)

/-- How the parts of a record are recognized in documents of type `ν`. -/
structure Reading (ν : Type) where
  fields? : List String → ν → Option (Fields ν)
  text? : ν → Option String
  flag? : ν → Option Bool
  elements? : ν → Option (List ν)

namespace Reading

variable {ν : Type} (r : Reading ν)

def texts? (v : ν) : Option (List String) := do
  (← r.elements? v).mapM r.text?

def labels? (v : ν) : Option Labels := do
  let fields ← r.fields?
    ["do_not_reconcile_key", "do_not_reconcile_value", "version_key", "canary_key",
      "canary_value"] v
  let default : Labels := {}
  return {
    doNotReconcileKey :=
      ← fields.optional? "do_not_reconcile_key" default.doNotReconcileKey r.text?
    doNotReconcileValue :=
      ← fields.optional? "do_not_reconcile_value" default.doNotReconcileValue r.text?
    versionKey := ← fields.optional? "version_key" default.versionKey r.text?
    canaryKey := ← fields.optional? "canary_key" default.canaryKey r.text?
    canaryValue := ← fields.optional? "canary_value" default.canaryValue r.text? }

def exclusions? (v : ν) : Option Exclusions := do
  let fields ← r.fields?
    ["ephemeral_status_prefix", "ephemeral_status_suffix", "override_config_name",
      "ignorable_secret_names"] v
  let default : Exclusions := {}
  return {
    ephemeralStatusPrefix :=
      ← fields.optional? "ephemeral_status_prefix" default.ephemeralStatusPrefix r.text?
    ephemeralStatusSuffix :=
      ← fields.optional? "ephemeral_status_suffix" default.ephemeralStatusSuffix r.text?
    overrideConfigName :=
      ← fields.optional? "override_config_name" default.overrideConfigName r.text?
    ignorableSecretNames :=
      ← fields.optional? "ignorable_secret_names" default.ignorableSecretNames r.texts? }

def primaryKind? (v : ν) : Option PrimaryKind := do
  let fields ← r.fields? ["kind", "tracks_upgrade"] v
  return {
    kind := ← fields.required? "kind" r.text?
    tracksUpgrade := ← fields.optional? "tracks_upgrade" false r.flag? }

def primaryKinds? (v : ν) : Option (List PrimaryKind) := do
  (← r.elements? v).mapM r.primaryKind?

def kinds? (v : ν) : Option Kinds := do
  let fields ← r.fields? ["api_group", "primary", "config_kind", "secret_kind", "worker_kind"] v
  let default : Kinds := {}
  return {
    apiGroup := ← fields.optional? "api_group" default.apiGroup r.text?
    primary := ← fields.optional? "primary" default.primary r.primaryKinds?
    configKind := ← fields.optional? "config_kind" default.configKind r.text?
    secretKind := ← fields.optional? "secret_kind" default.secretKind r.text?
    workerKind := ← fields.optional? "worker_kind" default.workerKind r.text? }

def diff? (v : ν) : Option Diff := do
  let fields ← r.fields? ["volatile_fields"] v
  let default : Diff := {}
  return {
    volatileFields := ← fields.optional? "volatile_fields" default.volatileFields r.texts? }

def logging? (v : ν) : Option Logging := do
  let fields ← r.fields? ["level"] v
  let default : Logging := {}
  return { level := ← fields.optional? "level" default.level r.text? }

def settings? (v : ν) : Option Settings := do
  let fields ← r.fields? ["labels", "exclusions", "kinds", "diff", "logging"] v
  return {
    labels := ← fields.optional? "labels" {} r.labels?
    exclusions := ← fields.optional? "exclusions" {} r.exclusions?
    kinds := ← fields.optional? "kinds" {} r.kinds?
    diff := ← fields.optional? "diff" {} r.diff?
    logging := ← fields.optional? "logging" {} r.logging? }

end Reading

def strict : Reading Value where
  fields? := Value.fields?
  text? := Value.string?
  flag? := Value.bool?
  elements? := Value.array?

def ofValue? (v : Value) : Option Settings :=
  strict.settings? v

def texts (values : List String) : Value :=
  .array (values.map .string)

def toValue (s : Settings) : Value :=
  .ofMembers
    [ ("labels", .ofMembers
        [ ("do_not_reconcile_key", .string s.labels.doNotReconcileKey),
          ("do_not_reconcile_value", .string s.labels.doNotReconcileValue),
          ("version_key", .string s.labels.versionKey),
          ("canary_key", .string s.labels.canaryKey),
          ("canary_value", .string s.labels.canaryValue) ]),
      ("exclusions", .ofMembers
        [ ("ephemeral_status_prefix", .string s.exclusions.ephemeralStatusPrefix),
          ("ephemeral_status_suffix", .string s.exclusions.ephemeralStatusSuffix),
          ("override_config_name", .string s.exclusions.overrideConfigName),
          ("ignorable_secret_names", texts s.exclusions.ignorableSecretNames) ]),
      ("kinds", .ofMembers
        [ ("api_group", .string s.kinds.apiGroup),
          ("primary", .array (s.kinds.primary.map fun p =>
            .ofMembers [("kind", .string p.kind), ("tracks_upgrade", .bool p.tracksUpgrade)])),
          ("config_kind", .string s.kinds.configKind),
          ("secret_kind", .string s.kinds.secretKind),
          ("worker_kind", .string s.kinds.workerKind) ]),
      ("diff", .ofMembers [("volatile_fields", texts s.diff.volatileFields)]),
      ("logging", .ofMembers [("level", .string s.logging.level)]) ]

end ReconcileTrigger.Settings
