import Mathlib.Data.List.Nodup
import Mathlib.Data.Option.Basic
import ReconcileTrigger.Proofs.Names
import ReconcileTrigger.Settings.Load

/-!
What legal settings look like. Among the kinds, the primary ones differ from each other and from the
builtin ones; that the builtin kinds differ from each other is not asked for.
-/

namespace ReconcileTrigger.Settings

open Text (blank)

theorem violationIf_eq_none_iff {condition : Bool} {v : Violation} :
    violationIf condition v = none ↔ condition = false := by
  cases condition with
  | false => exact iff_of_true rfl rfl
  | true => exact iff_of_false nofun nofun

theorem ne_empty_of_not_blank {name : String} (h : blank name = false) : name ≠ "" := by
  rintro rfl
  contradiction

theorem nameCheck_primaryViolation? (builtin : List String) :
    NameCheck PrimaryKind.kind (primaryViolation? builtin) where
  nil _ := rfl
  cons seen p rest := by
    simp only [primaryViolation?]
    split
    · rfl
    · split
      · rfl
      · split
        · rfl
        · rfl

theorem primaryViolation?_singleton_eq_none_iff {builtin seen : List String} {p : PrimaryKind} :
    primaryViolation? builtin seen [p] = none ↔
      (blank p.kind = false ∧ p.kind ∉ builtin) ∧ p.kind ∉ seen := by
  by_cases hblank : blank p.kind = true
  · simp [primaryViolation?, hblank]
  · by_cases hbuiltin : p.kind ∈ builtin
    · simp [primaryViolation?, hblank, hbuiltin]
    · simp [primaryViolation?, hblank, hbuiltin]

/-- Primary kinds are accepted iff none is blank, builtin or there before. -/
theorem primaryViolation?_eq_none_iff {builtin seen : List String} {primary : List PrimaryKind} :
    primaryViolation? builtin seen primary = none ↔
      (∀ p ∈ primary, blank p.kind = false ∧ p.kind ∉ builtin) ∧
        Fresh seen (primary.map PrimaryKind.kind) :=
  (nameCheck_primaryViolation? builtin).eq_none_iff fun _ _ =>
    primaryViolation?_singleton_eq_none_iff

structure Kinds.Legal (k : Kinds) : Prop where
  builtin_not_blank : ∀ kind ∈ k.builtin, blank kind = false
  primary_not_blank : ∀ p ∈ k.primary, blank p.kind = false
  primary_not_builtin : ∀ p ∈ k.primary, p.kind ∉ k.builtin
  primary_nodup : (k.primary.map PrimaryKind.kind).Nodup

theorem Kinds.violation?_eq_none_iff {k : Kinds} : k.violation? = none ↔ k.Legal := by
  have hbuiltin : k.builtin.any blank = false ↔ ∀ kind ∈ k.builtin, blank kind = false := by
    simp only [List.any_eq_false, Bool.not_eq_true]
  rw [Kinds.violation?, Option.orElse_eq_none, violationIf_eq_none_iff, hbuiltin,
    primaryViolation?_eq_none_iff, fresh_nil_left]
  constructor
  · rintro ⟨hblank, hprimary, hnodup⟩
    exact ⟨hblank, fun p hp => (hprimary p hp).1, fun p hp => (hprimary p hp).2, hnodup⟩
  · rintro ⟨hblank, hprimary, hbuiltin, hnodup⟩
    exact ⟨hblank, fun p hp => ⟨hprimary p hp, hbuiltin p hp⟩, hnodup⟩

theorem validate_eq_ok_iff {s : Settings} : s.validate = .ok () ↔ s.violation? = none := by
  unfold validate
  cases s.violation? with
  | none => exact iff_of_true rfl rfl
  | some v => exact iff_of_false nofun nofun

theorem validate_eq_error_iff {s : Settings} {v : Violation} :
    s.validate = .error v ↔ s.violation? = some v := by
  unfold validate
  cases s.violation? with
  | none => exact iff_of_false nofun nofun
  | some w => exact ⟨fun h => congrArg some (Except.error.inj h),
      fun h => congrArg Except.error (Option.some.inj h)⟩

theorem legal_kinds_of_validate {s : Settings} (h : s.validate = .ok ()) : s.kinds.Legal := by
  have hnone := validate_eq_ok_iff.1 h
  simp only [violation?, Option.orElse_eq_none] at hnone
  obtain ⟨_, _, hkinds, _⟩ := hnone
  exact Kinds.violation?_eq_none_iff.1 hkinds

theorem ofFields_eq_ok_iff {fields : Fields Document} {s : Settings} :
    ofFields fields = .ok s ↔
      lenient.settings? (.table fields) = some s ∧ s.validate = .ok () := by
  rw [validate_eq_ok_iff]
  constructor
  · intro h
    unfold ofFields at h
    split at h
    · contradiction
    · rename_i hread
      split at h
      · contradiction
      · rename_i hviolation
        obtain rfl := Except.ok.inj h
        exact ⟨hread, hviolation⟩
  · rintro ⟨hread, hviolation⟩
    simp only [ofFields, hread, hviolation]

section Load

variable {files : Files} {path : Option String} {environment : Environment} {s : Settings}

/-- Settings that are loaded are those of the file with the variables laid over it. -/
theorem exists_ofFields_of_load (h : load files path environment = .ok s) :
    ∃ fields, fileFields files path = .ok fields ∧
      ofFields (Document.overlayFields (Document.overlayFields [] fields) environment.fields) =
        .ok s := by
  rw [load] at h
  cases hfields : fileFields files path with
  | error e =>
    rw [hfields] at h
    contradiction
  | ok fields =>
    rw [hfields] at h
    exact ⟨fields, rfl, h⟩

theorem validate_of_load (h : load files path environment = .ok s) : s.validate = .ok () := by
  obtain ⟨_, _, hload⟩ := exists_ofFields_of_load h
  exact (ofFields_eq_ok_iff.1 hload).2

end Load

end ReconcileTrigger.Settings
