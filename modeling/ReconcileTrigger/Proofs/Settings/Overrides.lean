import ReconcileTrigger.Proofs.Document.Overlay
import ReconcileTrigger.Proofs.Environment
import ReconcileTrigger.Proofs.Settings.Field
import ReconcileTrigger.Proofs.Settings.Validation

/-!
Settings with variables over a file. Each field has a variable of its own, and the settings that are
loaded have what this variable gives wherever no other one reaches into the field. For a list that
is the value split at commas; for a text it is the value itself only if that is not taken for a flag
or a number that is written otherwise. The fields that no variable reaches have what the file gives.
-/

namespace ReconcileTrigger.Settings

open Document (entriesAt overlayFields)

section Variables

variable {sec : Section} {t : Form}

def Field.path (f : Field sec t) : String :=
  sec.key ++ "." ++ f.name

/-- The variable for a field: its path in capital letters, two underscores between the names. -/
def Field.variableName (f : Field sec t) : String :=
  String.ofList
    ((Environment.lead ++ sec.key.toList ++ ['_', '_'] ++ f.name.toList).map Char.toUpper)

theorem Field.key?_variableName (f : Field sec t) :
    Environment.key? f.variableName = some f.path := by
  have hlowered : f.variableName.toList.map Environment.lowered =
      Environment.lead ++ (sec.key.toList ++ '_' :: '_' :: f.name.toList) := by
    rw [variableName, String.toList_ofList]
    cases f <;> decide +kernel
  have hpointed : Environment.pointed (sec.key.toList ++ '_' :: '_' :: f.name.toList) =
      sec.key.toList ++ '.' :: f.name.toList := by
    cases f <;> decide +kernel
  have hpath : f.path = String.ofList (sec.key.toList ++ '.' :: f.name.toList) := by
    simp [path, String.append_assoc]
  simp only [Environment.key?, hlowered, hpath, List.drop_left, hpointed]
  exact if_pos (List.isPrefixOf_iff_prefix.2 (List.prefix_append _ _))

theorem Field.ofKey_path (f : Field sec t) : Place.ofKey f.path = ⟨sec.key, [.entry f.name]⟩ := by
  refine Place.ofKey_append_point ?_ ?_
  · cases sec <;> decide +kernel
  · cases f <;> decide +kernel

/-- A variable that sets a field, or what is around it, or a part of it. -/
def Touches (name : String) (f : Field sec t) : Prop :=
  ∃ key ∈ Environment.key? name, (Place.ofKey key).Touches sec.key f.name

def TouchesSection (name : String) (sec : Section) : Prop :=
  ∃ key ∈ Environment.key? name, (Place.ofKey key).entry = sec.key

/-- The variable for a field has this value, and no other variable touches the field. -/
structure SetTo (environment : Environment) (f : Field sec t) (value : String) : Prop where
  mem : (f.variableName, value) ∈ environment
  only : ∀ e ∈ environment, Touches e.1 f → e = (f.variableName, value)

def Untouched (environment : Environment) (f : Field sec t) : Prop :=
  ∀ e ∈ environment, ¬ Touches e.1 f

instance (name : String) (f : Field sec t) : Decidable (Touches name f) :=
  inferInstanceAs (Decidable (∃ key ∈ Environment.key? name, _))

instance (environment : Environment) (f : Field sec t) (value : String) :
    Decidable (SetTo environment f value) :=
  decidable_of_iff (_ ∧ _) ⟨fun h => ⟨h.1, h.2⟩, fun h => ⟨h.mem, h.only⟩⟩

instance (environment : Environment) (f : Field sec t) : Decidable (Untouched environment f) :=
  inferInstanceAs (Decidable (∀ e ∈ environment, ¬ Touches e.1 f))

def InListForm (fields : Fields Document) (sec : Section) : Prop :=
  ∃ elements, fields.lookup sec.key = some (.list elements)

end Variables

section Given

variable {environment : Environment} {lower : Fields Document} {sec : Section} {t : Form}
  {f : Field sec t} {value : String}

theorem given?_of_not_inListForm {fields : Fields Document} (h : ¬ InListForm fields sec) :
    lenient.given? (.table fields) f = (entriesAt fields sec.key).lookup f.name := by
  have hsection : lenient.section? (.table fields) sec = fields.lookup sec.key := rfl
  rw [Reading.given?, hsection, entriesAt]
  cases hd : fields.lookup sec.key with
  | none => rfl
  | some d =>
    cases d with
    | list elements => exact absurd ⟨elements, hd⟩ h
    | _ => rfl

theorem Untouched.not_touches (h : Untouched environment f) :
    ∀ e ∈ environment.fields, ¬ (Place.ofKey e.1).Touches sec.key f.name := by
  rintro ⟨key, d⟩ hmem htouches
  obtain ⟨e, he, hkey, _⟩ := Environment.mem_fields_iff.1 hmem
  exact h e he ⟨key, hkey, htouches⟩

theorem exists_touchesSection_iff :
    (∃ e ∈ environment.fields, (Place.ofKey e.1).entry = sec.key) ↔
      ∃ e ∈ environment, TouchesSection e.1 sec := by
  constructor
  · rintro ⟨⟨key, d⟩, hmem, hentry⟩
    obtain ⟨e, he, hkey, _⟩ := Environment.mem_fields_iff.1 hmem
    exact ⟨e, he, key, hkey, hentry⟩
  · rintro ⟨e, he, key, hkey, hentry⟩
    exact ⟨_, Environment.mem_fields_iff.2 ⟨e, he, hkey, rfl⟩, hentry⟩

/-- A section is no list after variables that put their values under names in it. -/
theorem not_inListForm_of_touchesSection
    (hsteps : ∀ e ∈ environment.fields, (Place.ofKey e.1).entry = sec.key →
      ∃ name steps, (Place.ofKey e.1).steps = .entry name :: steps)
    (h : ∃ e ∈ environment, TouchesSection e.1 sec) :
    ¬ InListForm (overlayFields lower environment.fields) sec := by
  obtain ⟨entries, htable⟩ :=
    Document.exists_table_of_entry hsteps (exists_touchesSection_iff.2 h)
  rintro ⟨elements, hlist⟩
  rw [htable] at hlist
  cases hlist

theorem given?_of_setTo (h : SetTo environment f value) :
    lenient.given? (.table (overlayFields lower environment.fields)) f =
      some (Environment.document f.path value) := by
  have hkey : Environment.key? f.variableName = some f.path := f.key?_variableName
  have honly : ∀ e ∈ environment.fields, (Place.ofKey e.1).Touches sec.key f.name →
      e = (f.path, Environment.document f.path value) := by
    rintro ⟨key, d⟩ hmem htouches
    obtain ⟨e, he, hname, rfl⟩ := Environment.mem_fields_iff.1 hmem
    obtain rfl := h.only e he ⟨key, hname, htouches⟩
    obtain rfl : f.path = key := Option.some.inj (hkey.symm.trans hname)
    rfl
  have hsteps : ∀ e ∈ environment.fields, (Place.ofKey e.1).entry = sec.key →
      ∃ name steps, (Place.ofKey e.1).steps = .entry name :: steps := by
    intro e he hentry
    by_cases htouches : (Place.ofKey e.1).Touches sec.key f.name
    · rw [honly e he htouches, f.ofKey_path]
      exact ⟨_, _, rfl⟩
    · obtain ⟨name, steps, heq, _⟩ := Place.exists_entry_of_not_touches htouches hentry
      exact ⟨name, steps, heq⟩
  have hsection : ∃ e ∈ environment, TouchesSection e.1 sec :=
    ⟨_, h.mem, f.path, hkey, congrArg Place.entry f.ofKey_path⟩
  rw [given?_of_not_inListForm (not_inListForm_of_touchesSection hsteps hsection)]
  exact Document.lookup_entriesAt_of_mem f.ofKey_path (Environment.entries?_document _ _)
    (Environment.mem_fields_iff.2 ⟨_, h.mem, hkey, rfl⟩) honly

section Untouched

variable (h : Untouched environment f)
include h

theorem given?_of_touchesSection (hsection : ∃ e ∈ environment, TouchesSection e.1 sec) :
    lenient.given? (.table (overlayFields lower environment.fields)) f =
      (entriesAt lower sec.key).lookup f.name := by
  have hsteps : ∀ e ∈ environment.fields, (Place.ofKey e.1).entry = sec.key →
      ∃ name steps, (Place.ofKey e.1).steps = .entry name :: steps := by
    intro e he hentry
    obtain ⟨name, steps, heq, _⟩ := Place.exists_entry_of_not_touches (h.not_touches e he) hentry
    exact ⟨name, steps, heq⟩
  rw [given?_of_not_inListForm (not_inListForm_of_touchesSection hsteps hsection)]
  exact Document.lookup_entriesAt_overlayFields h.not_touches

theorem given?_of_untouched
    (hform : ¬ (InListForm lower sec ∧ ∃ e ∈ environment, TouchesSection e.1 sec)) :
    lenient.given? (.table (overlayFields lower environment.fields)) f =
      lenient.given? (.table lower) f := by
  by_cases hsection : ∃ e ∈ environment, TouchesSection e.1 sec
  · have hlower : ¬ InListForm lower sec := fun hlist => hform ⟨hlist, hsection⟩
    rw [given?_of_touchesSection h hsection, given?_of_not_inListForm hlower]
  · have hlookup :
        (overlayFields lower environment.fields).lookup sec.key = lower.lookup sec.key := by
      refine Document.lookup_overlayFields_of_ne fun e he hentry => hsection ?_
      exact exists_touchesSection_iff.1 ⟨e, he, hentry⟩
    exact congrArg (fun d => d.bind fun d => (lenient.fields? sec.names d).bind (·.lookup f.name))
      hlookup

/-- A section in list form is lost where a variable puts something in it under a name. -/
theorem given?_of_inListForm (hlist : InListForm lower sec)
    (hsection : ∃ e ∈ environment, TouchesSection e.1 sec) :
    lenient.given? (.table (overlayFields lower environment.fields)) f = none := by
  obtain ⟨elements, hlist⟩ := hlist
  rw [given?_of_touchesSection h hsection, entriesAt, hlist]
  rfl

end Untouched

end Given

theorem ok_of_toOption {r : Except LoadError Settings} {s : Settings} (h : r.toOption = some s) :
    r = .ok s := by
  cases r with
  | error e => contradiction
  | ok a => exact congrArg Except.ok (Option.some.inj h)

section Values

variable {sec : Section} {value text : String}

/-- The variable for a text gives the text of the scalar that its value is taken for, or else the
value. -/
theorem text?_document_iff (f : Field sec .text) :
    (Environment.document f.path value).text? = some text ↔
      Supplied Document.text? (Environment.scalar? value) value text := by
  have hkey : ¬ Environment.listKeys.contains f.path = true := by
    cases f <;> decide +kernel
  rw [Environment.document_eq, if_neg hkey]
  cases Environment.scalar? value with
  | none =>
    rw [supplied_none, Option.getD_none, Document.text?, Option.some_inj]
    exact eq_comm
  | some d => rw [supplied_some, Option.getD_some]

theorem eq_iff_asWritten
    (h : Supplied Document.text? (Environment.scalar? value) value text) :
    text = value ↔ Environment.AsWritten value := by
  rw [Environment.asWritten_iff]
  constructor
  · rintro rfl d hd
    exact h.2 d hd
  · intro hsame
    cases hd : Environment.scalar? value with
    | none => exact h.1 hd
    | some d => exact Option.some.inj ((h.2 d hd).symm.trans (hsame d hd))

theorem texts?_document {key : String} {l : List String}
    (h : lenient.texts? (Environment.document key value) = some l) :
    l = (Text.split ',' value.toList).map String.ofList := by
  simp only [Reading.texts?, Option.bind_eq_bind, Option.bind_eq_some_iff] at h
  obtain ⟨elements, helements, hread⟩ := h
  have hparts : elements =
      ((Text.split ',' value.toList).map String.ofList).map Document.text := by
    rw [Environment.elements?_document helements, List.map_map]
    rfl
  have htexts : ∀ parts : List String, (parts.map Document.text).mapM lenient.text? = some parts :=
    mapM_map_eq_some fun _ => rfl
  rw [hparts, htexts] at hread
  exact (Option.some.inj hread).symm

end Values

/-- The settings that are loaded have what the variables set, and what the file gives where no
variable reaches. A text comes through as it was written unless its value is taken for a flag or a
number that is written otherwise. -/
theorem variables_set_fields {files : Files} {path : Option String} {environment : Environment}
    {s : Settings} (h : load files path environment = .ok s) :
    (∀ sec (f : Field sec .text) value, SetTo environment f value →
      Supplied Document.text? (Environment.scalar? value) value (f.get s) ∧
        (f.get s = value ↔ Environment.AsWritten value)) ∧
    (∀ sec (f : Field sec .names) value, SetTo environment f value →
      f.get s = (Text.split ',' value.toList).map String.ofList) ∧
    ∃ fields, fileFields files path = .ok fields ∧
      ∀ sec t (f : Field sec t), Untouched environment f →
        (¬ (InListForm (overlayFields [] fields) sec ∧
            ∃ e ∈ environment, TouchesSection e.1 sec) →
          Supplied (lenient.value? t) (lenient.given? (.table (overlayFields [] fields)) f)
            (f.get {}) (f.get s)) ∧
        (InListForm (overlayFields [] fields) sec →
          (∃ e ∈ environment, TouchesSection e.1 sec) → f.get s = f.get {}) := by
  obtain ⟨fields, hfields, hload⟩ := exists_ofFields_of_load h
  obtain ⟨hread, _⟩ := ofFields_eq_ok_iff.1 hload
  obtain ⟨_, hsupplied⟩ := Reading.settings?_eq_some_iff.1 hread
  have hgives {sec : Section} {t : Form} {f : Field sec t} {value : String}
      (hset : SetTo environment f value) :
      lenient.value? t (Environment.document f.path value) = some (f.get s) :=
    (hsupplied sec t f).2 _ (given?_of_setTo hset)
  refine ⟨?_, ?_, fields, hfields, ?_⟩
  · intro sec f value hvalue
    have htext := (text?_document_iff f).1 (hgives hvalue)
    exact ⟨htext, eq_iff_asWritten htext⟩
  · intro sec f value hvalue
    exact texts?_document (hgives hvalue)
  · intro sec t f huntouched
    refine ⟨?_, ?_⟩
    · intro hform
      rw [← given?_of_untouched huntouched hform]
      exact hsupplied sec t f
    · intro hlist hsection
      exact (hsupplied sec t f).1 (given?_of_inListForm huntouched hlist hsection)

def mixedVariables : Environment :=
  [ ("HOME", "/root"), ("KGATE__LABELS__VERSION_KEY", "release"),
    ("KGATE__LABELS__CANARY_VALUE", "TRUE"), ("KGATE__DIFF__VOLATILE_FIELDS", "status,007") ]

theorem variables_set_fields_mixed :
    ∃ s, load (fun _ => .missing) none mixedVariables = .ok s ∧ s.labels.versionKey = "release" ∧
      s.labels.canaryValue = "true" ∧ s.labels.canaryKey = "mon_canary" ∧
      s.diff.volatileFields = ["status", "007"] := by
  have hload := ok_of_toOption (r := load (fun _ => .missing) none mixedVariables)
    (s := { labels := { versionKey := "release", canaryValue := "true" }
            diff := { volatileFields := ["status", "007"] } }) (by decide +kernel)
  obtain ⟨htexts, hlists, fields, hfields, hrest⟩ := variables_set_fields hload
  obtain ⟨_, hversion⟩ := htexts .labels .versionKey "release" (by decide +kernel)
  obtain ⟨hcanary, _⟩ := htexts .labels .canaryValue "TRUE" (by decide +kernel)
  obtain ⟨hkey, _⟩ := hrest .labels .text .canaryKey (by decide +kernel)
  refine ⟨_, hload, ?_, ?_, ?_, ?_⟩
  · refine hversion.2 (.word ?_)
    exact Option.isNone_iff_eq_none.1 (by decide +kernel)
  · exact Option.some.inj (hcanary.2 (.flag true) rfl).symm
  · obtain rfl : [] = fields := Except.ok.inj hfields
    refine (hkey ?_).1 rfl
    rintro ⟨⟨_, hlist⟩, _⟩
    contradiction
  · have hsplit : (Text.split ',' "status,007".toList).map String.ofList = ["status", "007"] := by
      decide +kernel
    exact (hlists .diff .volatileFields "status,007" (by decide +kernel)).trans hsplit

/-- A text can come through as another one. -/
theorem canary_value_is_changed :
    ∃ s, load (fun _ => .missing) none [("KGATE__LABELS__CANARY_VALUE", "TRUE")] = .ok s ∧
      s.labels.canaryValue ≠ "TRUE" := by
  have hload := ok_of_toOption
    (r := load (fun _ => .missing) none [("KGATE__LABELS__CANARY_VALUE", "TRUE")])
    (s := { labels := { canaryValue := "true" } }) (by decide +kernel)
  exact ⟨_, hload, by decide⟩

example : (["007", "1.10", "1e3", "FALSE", "v1"].map fun value =>
    (Environment.scalar? value).bind Document.text?) =
      [some "7", some "1.1", some "1000", some "false", none] := by
  decide +kernel

end ReconcileTrigger.Settings
