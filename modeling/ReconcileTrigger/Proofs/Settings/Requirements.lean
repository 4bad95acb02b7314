import ReconcileTrigger.Proofs.Settings.Validation

/-!
What is asked of settings, as a list in the order of the checks. Settings are accepted iff they meet
every requirement. If they do not, what is reported belongs to the first requirement in that order
that they miss, and among the primary kinds to the first entry at fault.
-/

namespace ReconcileTrigger.Settings

open Text (blank)

/-- The entries are neither blank nor builtin kinds, and each kind is listed once. -/
structure PrimaryInOrder (builtin : List String) (primary : List PrimaryKind) : Prop where
  not_blank : ∀ p ∈ primary, blank p.kind = false
  not_builtin : ∀ p ∈ primary, p.kind ∉ builtin
  nodup : (primary.map PrimaryKind.kind).Nodup

/-- What is wrong with an entry behind entries of the kinds `earlier`: it is blank, else builtin,
else there before. -/
def IsPrimaryFault (builtin earlier : List String) (p : PrimaryKind) (v : Violation) : Prop :=
  blank p.kind = true ∧ v = .blankPrimaryKind ∨
  blank p.kind = false ∧ p.kind ∈ builtin ∧ v = .builtinPrimaryKind p.kind ∨
  blank p.kind = false ∧ p.kind ∉ builtin ∧ p.kind ∈ earlier ∧ v = .repeatedPrimaryKind p.kind

theorem primaryInOrder_iff {builtin : List String} {primary : List PrimaryKind} :
    PrimaryInOrder builtin primary ↔ primaryViolation? builtin [] primary = none := by
  rw [primaryViolation?_eq_none_iff, fresh_nil_left]
  constructor
  · rintro ⟨hblank, hbuiltin, hnodup⟩
    exact ⟨fun p hp => ⟨hblank p hp, hbuiltin p hp⟩, hnodup⟩
  · rintro ⟨hentries, hnodup⟩
    exact ⟨fun p hp => (hentries p hp).1, fun p hp => (hentries p hp).2, hnodup⟩

theorem primaryViolation?_singleton_eq_some_iff {builtin seen : List String} {p : PrimaryKind}
    {v : Violation} :
    primaryViolation? builtin seen [p] = some v ↔ IsPrimaryFault builtin seen p v := by
  by_cases hblank : blank p.kind = true
  · simp [primaryViolation?, IsPrimaryFault, hblank, eq_comm]
  · by_cases hbuiltin : p.kind ∈ builtin
    · simp [primaryViolation?, IsPrimaryFault, hblank, hbuiltin, eq_comm]
    · simp [primaryViolation?, IsPrimaryFault, hblank, hbuiltin, eq_comm]

/-- The first entry at fault is reported. -/
theorem primaryViolation?_nil_eq_some_iff {builtin : List String} {primary : List PrimaryKind}
    {v : Violation} :
    primaryViolation? builtin [] primary = some v ↔
      ∃ before p after, primary = before ++ p :: after ∧ PrimaryInOrder builtin before ∧
        IsPrimaryFault builtin (before.map PrimaryKind.kind) p v := by
  rw [(nameCheck_primaryViolation? builtin).eq_some_iff]
  simp only [← primaryInOrder_iff, primaryViolation?_singleton_eq_some_iff, IsPrimaryFault,
    List.append_nil, List.mem_reverse]

inductive Requirement
  | doNotReconcileKey
  | versionKey
  | canaryKey
  | ephemeralStatusName
  | overrideConfigName
  | builtinKinds
  | primaryKinds
  | volatileFields
  | logLevel
  deriving DecidableEq

namespace Requirement

def order : List Requirement :=
  [.doNotReconcileKey, .versionKey, .canaryKey, .ephemeralStatusName, .overrideConfigName,
    .builtinKinds, .primaryKinds, .volatileFields, .logLevel]

theorem mem_order (r : Requirement) : r ∈ order := by
  cases r <;> decide

def Holds (s : Settings) : Requirement → Prop
  | .doNotReconcileKey => blank s.labels.doNotReconcileKey = false
  | .versionKey => blank s.labels.versionKey = false
  | .canaryKey => blank s.labels.canaryKey = false
  | .ephemeralStatusName =>
    ¬ (s.exclusions.ephemeralStatusPrefix = "" ∧ s.exclusions.ephemeralStatusSuffix = "")
  | .overrideConfigName => blank s.exclusions.overrideConfigName = false
  | .builtinKinds => ∀ kind ∈ s.kinds.builtin, blank kind = false
  | .primaryKinds => PrimaryInOrder s.kinds.builtin s.kinds.primary
  | .volatileFields => ∀ field ∈ s.diff.volatileFields, blank field = false
  | .logLevel =>
    Text.lowerCase s.logging.level.toList ∈ ["trace", "debug", "info", "warn", "error", "off"]

def Reports (s : Settings) : Requirement → Violation → Prop
  | .doNotReconcileKey, v => v = .blankLabelKey "labels.do_not_reconcile_key"
  | .versionKey, v => v = .blankLabelKey "labels.version_key"
  | .canaryKey, v => v = .blankLabelKey "labels.canary_key"
  | .ephemeralStatusName, v => v = .noEphemeralStatusName
  | .overrideConfigName, v => v = .blankOverrideConfigName
  | .builtinKinds, v => v = .blankBuiltinKind
  | .primaryKinds, v => ∃ before p after, s.kinds.primary = before ++ p :: after ∧
      PrimaryInOrder s.kinds.builtin before ∧
      IsPrimaryFault s.kinds.builtin (before.map PrimaryKind.kind) p v
  | .volatileFields, v => v = .blankVolatileField
  | .logLevel, v => v = .unknownLogLevel

def violation? (s : Settings) : Requirement → Option Violation
  | .doNotReconcileKey =>
    violationIf (blank s.labels.doNotReconcileKey) (.blankLabelKey "labels.do_not_reconcile_key")
  | .versionKey => violationIf (blank s.labels.versionKey) (.blankLabelKey "labels.version_key")
  | .canaryKey => violationIf (blank s.labels.canaryKey) (.blankLabelKey "labels.canary_key")
  | .ephemeralStatusName =>
    violationIf
      (s.exclusions.ephemeralStatusPrefix == "" && s.exclusions.ephemeralStatusSuffix == "")
      .noEphemeralStatusName
  | .overrideConfigName =>
    violationIf (blank s.exclusions.overrideConfigName) .blankOverrideConfigName
  | .builtinKinds => violationIf (s.kinds.builtin.any blank) .blankBuiltinKind
  | .primaryKinds => primaryViolation? s.kinds.builtin [] s.kinds.primary
  | .volatileFields => s.diff.violation?
  | .logLevel => s.logging.violation?

end Requirement

theorem violationIf_eq_some_iff {condition : Bool} {v w : Violation} :
    violationIf condition v = some w ↔ violationIf condition v ≠ none ∧ w = v := by
  cases condition with
  | false => exact iff_of_false nofun fun h => h.1 rfl
  | true => exact ⟨fun h => ⟨nofun, (Option.some.inj h).symm⟩, fun h => congrArg some h.2.symm⟩

namespace Requirement

variable {s : Settings} {r : Requirement} {v : Violation}

theorem violation?_eq_none_iff : r.violation? s = none ↔ r.Holds s := by
  cases r with
  | doNotReconcileKey => exact violationIf_eq_none_iff
  | versionKey => exact violationIf_eq_none_iff
  | canaryKey => exact violationIf_eq_none_iff
  | ephemeralStatusName =>
    rw [violation?, Holds, violationIf_eq_none_iff, ← Bool.not_eq_true, Bool.and_eq_true,
      beq_iff_eq, beq_iff_eq]
  | overrideConfigName => exact violationIf_eq_none_iff
  | builtinKinds =>
    rw [violation?, Holds, violationIf_eq_none_iff, List.any_eq_false]
    simp only [Bool.not_eq_true]
  | primaryKinds => exact primaryInOrder_iff.symm
  | volatileFields =>
    rw [violation?, Holds, Diff.violation?, violationIf_eq_none_iff, List.any_eq_false]
    simp only [Bool.not_eq_true]
  | logLevel =>
    rw [violation?, Holds, Logging.violation?, violationIf_eq_none_iff, Bool.not_eq_false',
      List.contains_iff_mem]
    rfl

theorem violation?_eq_some_iff : r.violation? s = some v ↔ ¬ r.Holds s ∧ r.Reports s v := by
  rw [← violation?_eq_none_iff]
  cases r with
  | doNotReconcileKey => exact violationIf_eq_some_iff
  | versionKey => exact violationIf_eq_some_iff
  | canaryKey => exact violationIf_eq_some_iff
  | ephemeralStatusName => exact violationIf_eq_some_iff
  | overrideConfigName => exact violationIf_eq_some_iff
  | builtinKinds => exact violationIf_eq_some_iff
  | primaryKinds =>
    rw [violation?, Reports, ← primaryViolation?_nil_eq_some_iff]
    refine (and_iff_right_of_imp ?_).symm
    intro hsome hnone
    rw [hsome] at hnone
    contradiction
  | volatileFields => exact violationIf_eq_some_iff
  | logLevel => exact violationIf_eq_some_iff

end Requirement

/-- The checks section by section are those of the requirements, one after another. -/
theorem violation?_eq_findSome? (s : Settings) :
    s.violation? = Requirement.order.findSome? (Requirement.violation? s) := by
  have hcons (r : Requirement) (rest : List Requirement) :
      (r :: rest).findSome? (Requirement.violation? s) =
        (r.violation? s).or (rest.findSome? (Requirement.violation? s)) := by
    rw [List.findSome?_cons]
    cases r.violation? s with
    | none => rfl
    | some v => rfl
  simp only [Requirement.order, hcons, List.findSome?_nil, Option.or_none, Requirement.violation?,
    violation?, Labels.violation?, Exclusions.violation?, Kinds.violation?,
    Option.orElse_eq_orElse, Option.orElse_eq_or, Option.or_assoc]

/-- Settings are accepted iff they meet all requirements. Otherwise the report is about the first
one that they miss. -/
theorem first_missed_requirement_is_reported (s : Settings) :
    (s.validate = .ok () ↔ ∀ r : Requirement, r.Holds s) ∧
      ∀ v, s.validate = .error v ↔ ∃ before r after, Requirement.order = before ++ r :: after ∧
        (∀ q ∈ before, q.Holds s) ∧ ¬ r.Holds s ∧ r.Reports s v := by
  constructor
  · rw [validate_eq_ok_iff, violation?_eq_findSome?, List.findSome?_eq_none_iff]
    simp only [Requirement.violation?_eq_none_iff, Requirement.mem_order, forall_const]
  · intro v
    rw [validate_eq_error_iff, violation?_eq_findSome?, List.findSome?_eq_some_iff]
    simp only [Requirement.violation?_eq_none_iff, Requirement.violation?_eq_some_iff, and_assoc]
    constructor
    · rintro ⟨before, r, after, horder, hmissed, hreports, hbefore⟩
      exact ⟨before, r, after, horder, hbefore, hmissed, hreports⟩
    · rintro ⟨before, r, after, horder, hbefore, hmissed, hreports⟩
      exact ⟨before, r, after, horder, hmissed, hreports, hbefore⟩

example :
    validate { kinds := { primary := [⟨"Pool", true⟩, ⟨"Secret", false⟩, ⟨"\u2003", false⟩] }
               diff := { volatileFields := [""] } } =
      .error (.builtinPrimaryKind "Secret") := by
  decide +kernel

example :
    validate { labels := { versionKey := " \t" }
               exclusions := { overrideConfigName := "" } } =
      .error (.blankLabelKey "labels.version_key") := by
  decide +kernel

end ReconcileTrigger.Settings
