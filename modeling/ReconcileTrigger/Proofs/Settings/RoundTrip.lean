import ReconcileTrigger.Proofs.Settings.Written

/-!
Settings that are written to a file are loaded from it as they were, as long as they are legal and
the environment sets nothing.
-/

namespace ReconcileTrigger.Settings

/-- The document is what a file with the text gives. -/
theorem fieldsAt_written (s : Settings) {files : Files} {path : String}
    (hfile : files path = .text s.written) (hformat : Format.ofPath? path = some .toml) :
    fieldsAt files path = .ok s.fields := by
  have hfound : found? files path = some (s.written, .toml) := by
    rw [found?, hfile]
    simp only [hformat, Option.map_some]
  have hread : Format.toml.fields? s.written = some s.fields := by
    simp only [Format.fields?, dropMark_written, String.ofList_toList, parse?_written]
  simp only [fieldsAt, hfound, Option.bind_some, hread]

theorem fileFields_written (s : Settings) {files : Files} {path : Option String}
    (hfile : files (path.getD defaultPath) = .text s.written)
    (hformat : Format.ofPath? (path.getD defaultPath) = some .toml) :
    fileFields files path = .ok s.fields := by
  cases path with
  | none =>
    rw [Option.getD_none] at hfile hformat
    have hpresent : (files defaultPath).isPresent = true := by rw [hfile]; rfl
    rw [fileFields, if_pos hpresent, s.fieldsAt_written hfile hformat]
  | some path =>
    rw [Option.getD_some] at hfile hformat
    have hpresent : (files path).isPresent = true := by rw [hfile]; rfl
    rw [fileFields, if_pos hpresent, s.fieldsAt_written hfile hformat]

theorem fields_eq_nil_of_unnamed {environment : Environment}
    (h : ∀ e ∈ environment, Environment.key? e.1 = none) :
    environment.fields = [] := by
  rw [Environment.fields, List.filterMap_eq_nil_iff]
  intro e he
  exact Option.map_eq_none_iff.2 (h e he)

theorem ofFields_fields {s : Settings} (h : s.validate = .ok ()) : ofFields s.fields = .ok s := by
  have hviolation := validate_eq_ok_iff.1 h
  simp only [ofFields, faithful_lenient.settings?_fields, hviolation]

/-- The text of any settings is a TOML text, and what it holds is the same settings, for every
reading that takes its parts as what they are. A file with that text is loaded as the settings if
they are legal and no variable of the environment is a setting. -/
theorem written_is_read_back (s : Settings) :
    ∃ fields, Toml.parse? s.written = some fields ∧
      (∀ r : Reading Document, r.Faithful → r.settings? (.table fields) = some s) ∧
      ∀ files path environment, s.validate = .ok () →
        files (path.getD defaultPath) = .text s.written →
        Format.ofPath? (path.getD defaultPath) = some .toml →
        (∀ e ∈ environment, Environment.key? e.1 = none) →
        load files path environment = .ok s := by
  refine ⟨s.fields, s.parse?_written, fun r hr => hr.settings?_fields s, ?_⟩
  intro files path environment hvalid hfile hformat henvironment
  have hfields : Document.overlayFields (Document.overlayFields [] s.fields) environment.fields =
      s.fields := by
    rw [fields_eq_nil_of_unnamed henvironment, overlayFields_fields]
    rfl
  rw [load, s.fileFields_written hfile hformat]
  change ofFields (Document.overlayFields (Document.overlayFields [] s.fields) _) = _
  rw [hfields]
  exact ofFields_fields hvalid

/-- Texts with quotes, newlines and control characters, no secrets and two primary kinds. -/
def quotedSettings : Settings where
  labels := { versionKey := "'''\\\n\"\"\"\"", canaryValue := "\x01\té\r\n" }
  exclusions := { ignorableSecretNames := [] }
  kinds := { primary := [⟨"\"A'", true⟩, ⟨"B\\", false⟩] }
  diff := { volatileFields := ["\t,", "#\n]"] }

theorem written_is_read_back_quoted :
    quotedSettings.validate = .ok () ∧
      (∃ fields, Toml.parse? quotedSettings.written = some fields ∧
        literal.settings? (.table fields) = some quotedSettings ∧
        lenient.settings? (.table fields) = some quotedSettings) ∧
      load (fun _ => .text quotedSettings.written) (some "kgate.toml") [("HOME", "/root")] =
        .ok quotedSettings := by
  have hvalid : quotedSettings.validate = .ok () := by decide +kernel
  obtain ⟨fields, hparse, hread, hload⟩ := quotedSettings.written_is_read_back
  refine ⟨hvalid, ⟨fields, hparse, hread _ faithful_literal, hread _ faithful_lenient⟩, ?_⟩
  exact hload _ _ _ hvalid rfl (by decide) (by decide)

end ReconcileTrigger.Settings
