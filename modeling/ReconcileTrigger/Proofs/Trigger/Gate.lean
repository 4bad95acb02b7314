import Mathlib.Data.List.Duplicate
import Mathlib.Data.List.Nodup
import ReconcileTrigger.Proofs.Catalog
import ReconcileTrigger.Proofs.Rule.Defaults
import ReconcileTrigger.Proofs.Settings.Validation
import ReconcileTrigger.Trigger.Gate

/-!
When settings give a gate. Nothing but the catalog can fail: the rules are accepted for all
settings. Of legal settings the catalog refuses those with equal builtin kinds.
-/

namespace ReconcileTrigger.Trigger.Gate

variable {s : Settings}

theorem ofSettings_eq_ok_iff {g : Gate} :
    ofSettings s = .ok g ↔ ∃ catalog, Catalog.ofSettings s = .ok catalog ∧
      g = ⟨s, catalog, ⟨RuleSet.defaults s⟩, ⟨s.diff.volatileFields⟩⟩ := by
  rw [ofSettings, RuleSet.ofSettings_eq]
  cases Catalog.ofSettings s with
  | error e => exact iff_of_false nofun nofun
  | ok catalog =>
    constructor
    · intro h
      exact ⟨catalog, rfl, (Except.ok.inj h).symm⟩
    · rintro ⟨_, hcatalog, rfl⟩
      obtain rfl := Except.ok.inj hcatalog
      rfl

theorem ofSettings_eq_error_iff {e : Failure} :
    ofSettings s = .error e ↔ Catalog.ofSettings s = .error e := by
  rw [ofSettings, RuleSet.ofSettings_eq]
  cases Catalog.ofSettings s with
  | error e' =>
    constructor
    · intro h
      exact congrArg Except.error (Except.error.inj h)
    · intro h
      exact congrArg Except.error (Except.error.inj h)
  | ok catalog => exact iff_of_false nofun nofun

/-- Of legal kinds it is the builtin ones that decide whether there is a gate. -/
theorem exists_ofSettings_iff (h : s.kinds.Legal) :
    (∃ g, ofSettings s = .ok g) ↔ s.kinds.builtin.Nodup := by
  rw [← Catalog.fault?_eq_none_iff_of_legal h]
  constructor
  · rintro ⟨g, hg⟩
    obtain ⟨catalog, hcatalog, _⟩ := ofSettings_eq_ok_iff.1 hg
    exact (Catalog.ofKinds_eq_ok_iff.1 hcatalog).2
  · intro hfault
    have hcatalog := Catalog.ofKinds_eq_ok_iff.2 ⟨rfl, hfault⟩
    exact ⟨_, ofSettings_eq_ok_iff.2 ⟨_, hcatalog, rfl⟩⟩

/-- Settings that have been loaded give a gate iff their builtin kinds differ. -/
theorem exists_ofSettings_iff_of_load {files : Files} {path : Option String}
    {environment : Environment} (h : Settings.load files path environment = .ok s) :
    (∃ g, ofSettings s = .ok g) ↔ s.kinds.builtin.Nodup :=
  exists_ofSettings_iff (Settings.legal_kinds_of_validate (Settings.validate_of_load h))

def conventional : Gate :=
  ⟨{}, ⟨Catalog.configuredKinds {}⟩, ⟨RuleSet.defaults {}⟩, ⟨["status", "metadata"]⟩⟩

theorem ofSettings_eq_conventional : ofSettings {} = .ok conventional :=
  ofSettings_eq_ok_iff.2 ⟨_, rfl, rfl⟩

/-- Legal settings give a gate iff their builtin kinds differ. If they do not, the failure names the
one that is there twice. -/
theorem ofSettings_of_validate (h : s.validate = .ok ()) :
    ((∃ g, ofSettings s = .ok g) ↔ s.kinds.builtin.Nodup) ∧
      ∀ e, ofSettings s = .error e → ∃ kind, List.Duplicate kind s.kinds.builtin ∧
        e = .configuration ("kind " ++ kind ++ " registered more than once") := by
  have hlegal := Settings.legal_kinds_of_validate h
  refine ⟨exists_ofSettings_iff hlegal, ?_⟩
  intro e he
  have hfault := Catalog.ofKinds_eq_error_iff.1 (ofSettings_eq_error_iff.1 he)
  exact Catalog.fault?_eq_some_of_legal hlegal hfault

def sharedKind : Settings :=
  { kinds := { secretKind := "ConfigMap" } }

theorem validate_sharedKind : sharedKind.validate = .ok () := by
  decide +kernel

/-- The default settings give a gate. Those with a shared kind are legal too, but give none. -/
theorem ofSettings_of_validate_defaults :
    (Settings.validate {} = .ok () ∧ ∃ g, ofSettings {} = .ok g) ∧
      sharedKind.validate = .ok () ∧ ¬ ∃ g, ofSettings sharedKind = .ok g := by
  have hdefaults : Settings.validate {} = .ok () := by decide +kernel
  refine ⟨⟨hdefaults, (ofSettings_of_validate hdefaults).1.2 (by decide)⟩, validate_sharedKind, ?_⟩
  intro hg
  exact absurd ((ofSettings_of_validate validate_sharedKind).1.1 hg) (by decide)

/-- The failure of settings with a shared kind. -/
theorem not_ofSettings_of_validate_shared_kind :
    sharedKind.validate = .ok () ∧
      ofSettings sharedKind =
        .error (.configuration "kind ConfigMap registered more than once") :=
  ⟨validate_sharedKind, by decide +kernel⟩

end ReconcileTrigger.Trigger.Gate
