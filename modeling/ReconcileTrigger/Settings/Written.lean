import ReconcileTrigger.Settings.Basic
import ReconcileTrigger.Toml.Quotes

/-!
Settings written as a TOML text: a section for each part, every field with its value. Primary
kinds come after the other kinds, each under a header of its own.
-/

namespace ReconcileTrigger.Settings

open Toml (quoted)

def line (key value : String) : String :=
  key ++ " = " ++ value ++ "\n"

/-- The written form of a list, an element to a line from two elements on. -/
def quotedList : List String → String
  | [] => "[]"
  | [s] => "[" ++ quoted s ++ "]"
  | values => "[\n" ++ String.join (values.map fun s => "    " ++ quoted s ++ ",\n") ++ "]"

def Labels.written (l : Labels) : String :=
  "[labels]\n" ++
    line "do_not_reconcile_key" (quoted l.doNotReconcileKey) ++
    line "do_not_reconcile_value" (quoted l.doNotReconcileValue) ++
    line "version_key" (quoted l.versionKey) ++
    line "canary_key" (quoted l.canaryKey) ++
    line "canary_value" (quoted l.canaryValue)

def Exclusions.written (e : Exclusions) : String :=
  "[exclusions]\n" ++
    line "ephemeral_status_prefix" (quoted e.ephemeralStatusPrefix) ++
    line "ephemeral_status_suffix" (quoted e.ephemeralStatusSuffix) ++
    line "override_config_name" (quoted e.overrideConfigName) ++
    line "ignorable_secret_names" (quotedList e.ignorableSecretNames)

/-- The kinds without the primary ones; that there are none of these is said here. -/
def Kinds.written (k : Kinds) : String :=
  "[kinds]\n" ++
    line "api_group" (quoted k.apiGroup) ++
    (if k.primary.isEmpty then line "primary" "[]" else "") ++
    line "config_kind" (quoted k.configKind) ++
    line "secret_kind" (quoted k.secretKind) ++
    line "worker_kind" (quoted k.workerKind)

def PrimaryKind.written (p : PrimaryKind) : String :=
  "[[kinds.primary]]\n" ++
    line "kind" (quoted p.kind) ++
    line "tracks_upgrade" (if p.tracksUpgrade then "true" else "false")

def Diff.written (d : Diff) : String :=
  "[diff]\n" ++ line "volatile_fields" (quotedList d.volatileFields)

def Logging.written (l : Logging) : String :=
  "[logging]\n" ++ line "level" (quoted l.level)

def written (s : Settings) : String :=
  "\n".intercalate
    ([s.labels.written, s.exclusions.written, s.kinds.written] ++
      s.kinds.primary.map PrimaryKind.written ++ [s.diff.written, s.logging.written])

end ReconcileTrigger.Settings
