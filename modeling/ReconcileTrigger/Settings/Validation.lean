import ReconcileTrigger.Settings.Basic
import ReconcileTrigger.Text.Blank
import ReconcileTrigger.Text.Words

/-!
Legal settings. The checks run in a fixed order and the first one that fails is reported; among
the primary kinds that is the first entry that is blank, builtin, or listed before.
-/

namespace ReconcileTrigger.Settings

open Text (blank)

inductive Violation
  | blankLabelKey (name : String)
  | noEphemeralStatusName
  | blankOverrideConfigName
  | blankBuiltinKind
  | blankPrimaryKind
  | builtinPrimaryKind (kind : String)
  | repeatedPrimaryKind (kind : String)
  | blankVolatileField
  | unknownLogLevel
  deriving DecidableEq

namespace Violation

def message : Violation → String
  | .blankLabelKey name => name ++ " must not be empty"
  | .noEphemeralStatusName =>
    "exclusions.ephemeral_status_prefix and ephemeral_status_suffix cannot both be empty"
  | .blankOverrideConfigName => "exclusions.override_config_name must not be empty"
  | .blankBuiltinKind => "kinds.config_kind, secret_kind and worker_kind must not be empty"
  | .blankPrimaryKind => "kinds.primary entries need a kind"
  | .builtinPrimaryKind kind => "kinds.primary cannot track builtin secondary kind " ++ kind
  | .repeatedPrimaryKind kind => "kinds.primary lists " ++ kind ++ " more than once"
  | .blankVolatileField => "diff.volatile_fields must not contain empty names"
  | .unknownLogLevel =>
    "logging.level must be one of [\"trace\", \"debug\", \"info\", \"warn\", \"error\", \"off\"]"

end Violation

def violationIf (condition : Bool) (v : Violation) : Option Violation :=
  if condition then some v else none

def Labels.violation? (l : Labels) : Option Violation :=
  violationIf (blank l.doNotReconcileKey) (.blankLabelKey "labels.do_not_reconcile_key") <|>
    violationIf (blank l.versionKey) (.blankLabelKey "labels.version_key") <|>
    violationIf (blank l.canaryKey) (.blankLabelKey "labels.canary_key")

def Exclusions.violation? (e : Exclusions) : Option Violation :=
  violationIf (e.ephemeralStatusPrefix == "" && e.ephemeralStatusSuffix == "")
      .noEphemeralStatusName <|>
    violationIf (blank e.overrideConfigName) .blankOverrideConfigName

/-- The first fault of the primary kinds, `seen` being the kinds listed before them. -/
def primaryViolation? (builtin : List String) (seen : List String) :
    List PrimaryKind → Option Violation
  | [] => none
  | p :: rest =>
    if blank p.kind then some .blankPrimaryKind
    else if builtin.contains p.kind then some (.builtinPrimaryKind p.kind)
    else if seen.contains p.kind then some (.repeatedPrimaryKind p.kind)
    else primaryViolation? builtin (p.kind :: seen) rest

def Kinds.violation? (k : Kinds) : Option Violation :=
  violationIf (k.builtin.any blank) .blankBuiltinKind <|>
    primaryViolation? k.builtin [] k.primary

def Diff.violation? (d : Diff) : Option Violation :=
  violationIf (d.volatileFields.any blank) .blankVolatileField

def logLevels : List String :=
  ["trace", "debug", "info", "warn", "error", "off"]

/-- Log levels are told apart without regard to the case of ASCII letters. -/
def Logging.violation? (l : Logging) : Option Violation :=
  let level := Text.lowerCase l.level.toList
  violationIf (!logLevels.contains level) .unknownLogLevel

def violation? (s : Settings) : Option Violation :=
  s.labels.violation? <|> s.exclusions.violation? <|> s.kinds.violation? <|>
    s.diff.violation? <|> s.logging.violation?

def validate (s : Settings) : Except Violation Unit :=
  match s.violation? with
  | some v => .error v
  | none => .ok ()

end ReconcileTrigger.Settings
