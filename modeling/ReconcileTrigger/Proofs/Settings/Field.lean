import ReconcileTrigger.Settings.Record

/-!
The fields of settings one by one. A field stands in a section under a name, and its value is a
text, a list of names or the list of the primary kinds. A document gives a field iff its section is
there and has the name in it. Whatever is given has to be readable, the settings then have it, and
every other field has its default.
-/

namespace ReconcileTrigger.Settings

inductive Section
  | labels
  | exclusions
  | kinds
  | diff
  | logging
  deriving DecidableEq

inductive Form
  | text
  | names
  | primaryKinds
  deriving DecidableEq

def Form.Value : Form → Type
  | .text => String
  | .names => List String
  | .primaryKinds => List PrimaryKind

inductive Field : Section → Form → Type
  | doNotReconcileKey : Field .labels .text
  | doNotReconcileValue : Field .labels .text
  | versionKey : Field .labels .text
  | canaryKey : Field .labels .text
  | canaryValue : Field .labels .text
  | ephemeralStatusPrefix : Field .exclusions .text
  | ephemeralStatusSuffix : Field .exclusions .text
  | overrideConfigName : Field .exclusions .text
  | ignorableSecretNames : Field .exclusions .names
  | apiGroup : Field .kinds .text
  | primary : Field .kinds .primaryKinds
  | configKind : Field .kinds .text
  | secretKind : Field .kinds .text
  | workerKind : Field .kinds .text
  | volatileFields : Field .diff .names
  | level : Field .logging .text

namespace Section

def key : Section → String
  | .labels => "labels"
  | .exclusions => "exclusions"
  | .kinds => "kinds"
  | .diff => "diff"
  | .logging => "logging"

def keys : List String :=
  ["labels", "exclusions", "kinds", "diff", "logging"]

def names : Section → List String
  | .labels =>
    ["do_not_reconcile_key", "do_not_reconcile_value", "version_key", "canary_key", "canary_value"]
  | .exclusions =>
    ["ephemeral_status_prefix", "ephemeral_status_suffix", "override_config_name",
      "ignorable_secret_names"]
  | .kinds => ["api_group", "primary", "config_kind", "secret_kind", "worker_kind"]
  | .diff => ["volatile_fields"]
  | .logging => ["level"]

def Part : Section → Type
  | .labels => Labels
  | .exclusions => Exclusions
  | .kinds => Kinds
  | .diff => Diff
  | .logging => Logging

def part (s : Settings) : (sec : Section) → sec.Part
  | .labels => s.labels
  | .exclusions => s.exclusions
  | .kinds => s.kinds
  | .diff => s.diff
  | .logging => s.logging

end Section

namespace Field

def name {sec : Section} {t : Form} : Field sec t → String
  | .doNotReconcileKey => "do_not_reconcile_key"
  | .doNotReconcileValue => "do_not_reconcile_value"
  | .versionKey => "version_key"
  | .canaryKey => "canary_key"
  | .canaryValue => "canary_value"
  | .ephemeralStatusPrefix => "ephemeral_status_prefix"
  | .ephemeralStatusSuffix => "ephemeral_status_suffix"
  | .overrideConfigName => "override_config_name"
  | .ignorableSecretNames => "ignorable_secret_names"
  | .apiGroup => "api_group"
  | .primary => "primary"
  | .configKind => "config_kind"
  | .secretKind => "secret_kind"
  | .workerKind => "worker_kind"
  | .volatileFields => "volatile_fields"
  | .level => "level"

def ofPart {sec : Section} {t : Form} : Field sec t → sec.Part → t.Value
  | .doNotReconcileKey => Labels.doNotReconcileKey
  | .doNotReconcileValue => Labels.doNotReconcileValue
  | .versionKey => Labels.versionKey
  | .canaryKey => Labels.canaryKey
  | .canaryValue => Labels.canaryValue
  | .ephemeralStatusPrefix => Exclusions.ephemeralStatusPrefix
  | .ephemeralStatusSuffix => Exclusions.ephemeralStatusSuffix
  | .overrideConfigName => Exclusions.overrideConfigName
  | .ignorableSecretNames => Exclusions.ignorableSecretNames
  | .apiGroup => Kinds.apiGroup
  | .primary => Kinds.primary
  | .configKind => Kinds.configKind
  | .secretKind => Kinds.secretKind
  | .workerKind => Kinds.workerKind
  | .volatileFields => Diff.volatileFields
  | .level => Logging.level

def get {sec : Section} {t : Form} (s : Settings) (f : Field sec t) : t.Value :=
  f.ofPart (sec.part s)

end Field

attribute [ext] Labels Exclusions Kinds Diff Logging

/-- A section is known from its fields. -/
theorem Section.part_eq_iff {s s' : Settings} {sec : Section} :
    sec.part s = sec.part s' ↔ ∀ t (f : Field sec t), f.get s = f.get s' := by
  constructor
  · intro h t f
    exact congrArg f.ofPart h
  · intro h
    cases sec with
    | labels =>
      exact Labels.ext (h _ .doNotReconcileKey) (h _ .doNotReconcileValue) (h _ .versionKey)
        (h _ .canaryKey) (h _ .canaryValue)
    | exclusions =>
      exact Exclusions.ext (h _ .ephemeralStatusPrefix) (h _ .ephemeralStatusSuffix)
        (h _ .overrideConfigName) (h _ .ignorableSecretNames)
    | kinds =>
      exact Kinds.ext (h _ .apiGroup) (h _ .primary) (h _ .configKind) (h _ .secretKind)
        (h _ .workerKind)
    | diff => exact Diff.ext (h _ .volatileFields)
    | logging => exact Logging.ext (h _ .level)

def Supplied {ν α : Type} (read : ν → Option α) (given : Option ν) (default a : α) : Prop :=
  (given = none → a = default) ∧ ∀ v, given = some v → read v = some a

section Supplied

variable {ν α : Type} {read : ν → Option α} {default a : α}

theorem supplied_none : Supplied read none default a ↔ a = default :=
  ⟨fun h => h.1 rfl, fun h => ⟨fun _ => h, nofun⟩⟩

theorem supplied_some {v : ν} : Supplied read (some v) default a ↔ read v = some a := by
  constructor
  · intro h
    exact h.2 v rfl
  · intro h
    refine ⟨nofun, ?_⟩
    rintro _ ⟨⟩
    exact h

theorem optional?_eq_some_iff {fields : Fields ν} {name : String} :
    fields.optional? name default read = some a ↔
      Supplied read (fields.lookup name) default a := by
  unfold Fields.optional?
  split
  · rename_i v hlookup
    rw [hlookup, supplied_some]
  · rename_i hlookup
    rw [hlookup, supplied_none, Option.some_inj, eq_comm]

theorem required?_eq_some_iff {fields : Fields ν} {name : String} :
    fields.required? name read = some a ↔ ∃ v, fields.lookup name = some v ∧ read v = some a := by
  unfold Fields.required?
  split
  · rename_i v hlookup
    simp only [hlookup, Option.some_inj, exists_eq_left']
  · rename_i hlookup
    simp only [hlookup, reduceCtorEq, false_and, exists_false]

end Supplied

namespace Reading

variable {ν : Type} (r : Reading ν)

def value? : (t : Form) → ν → Option t.Value
  | .text => r.text?
  | .names => r.texts?
  | .primaryKinds => r.primaryKinds?

def part? : (sec : Section) → ν → Option sec.Part
  | .labels => r.labels?
  | .exclusions => r.exclusions?
  | .kinds => r.kinds?
  | .diff => r.diff?
  | .logging => r.logging?

def section? (v : ν) (sec : Section) : Option ν :=
  (r.fields? Section.keys v).bind (·.lookup sec.key)

def given? (v : ν) {sec : Section} {t : Form} (f : Field sec t) : Option ν :=
  (r.section? v sec).bind fun d => (r.fields? sec.names d).bind (·.lookup f.name)

def Gives (sec : Section) (fields : Fields ν) (part : sec.Part) : Prop :=
  ∀ t (f : Field sec t), fields.optional? f.name (f.get {}) (r.value? t) = some (f.ofPart part)

variable {r} {v d : ν} {s : Settings} {sec : Section}

theorem labels?_eq_some_iff {l : Labels} : r.labels? d = some l ↔
    ∃ fields, r.fields? Section.labels.names d = some fields ∧ r.Gives .labels fields l := by
  simp only [labels?, Option.bind_eq_bind, Option.bind_eq_some_iff, Option.pure_def,
    Option.some_inj]
  constructor
  · rintro ⟨fields, hfields, _, h₁, _, h₂, _, h₃, _, h₄, _, h₅, rfl⟩
    refine ⟨fields, hfields, ?_⟩
    intro t f
    cases f with
    | doNotReconcileKey => exact h₁
    | doNotReconcileValue => exact h₂
    | versionKey => exact h₃
    | canaryKey => exact h₄
    | canaryValue => exact h₅
  · rintro ⟨fields, hfields, h⟩
    exact ⟨fields, hfields, _, h _ .doNotReconcileKey, _, h _ .doNotReconcileValue, _,
      h _ .versionKey, _, h _ .canaryKey, _, h _ .canaryValue, rfl⟩

theorem exclusions?_eq_some_iff {e : Exclusions} : r.exclusions? d = some e ↔
    ∃ fields, r.fields? Section.exclusions.names d = some fields ∧
      r.Gives .exclusions fields e := by
  simp only [exclusions?, Option.bind_eq_bind, Option.bind_eq_some_iff, Option.pure_def,
    Option.some_inj]
  constructor
  · rintro ⟨fields, hfields, _, h₁, _, h₂, _, h₃, _, h₄, rfl⟩
    refine ⟨fields, hfields, ?_⟩
    intro t f
    cases f with
    | ephemeralStatusPrefix => exact h₁
    | ephemeralStatusSuffix => exact h₂
    | overrideConfigName => exact h₃
    | ignorableSecretNames => exact h₄
  · rintro ⟨fields, hfields, h⟩
    exact ⟨fields, hfields, _, h _ .ephemeralStatusPrefix, _, h _ .ephemeralStatusSuffix, _,
      h _ .overrideConfigName, _, h _ .ignorableSecretNames, rfl⟩

theorem kinds?_eq_some_iff {k : Kinds} : r.kinds? d = some k ↔
    ∃ fields, r.fields? Section.kinds.names d = some fields ∧ r.Gives .kinds fields k := by
  simp only [kinds?, Option.bind_eq_bind, Option.bind_eq_some_iff, Option.pure_def,
    Option.some_inj]
  constructor
  · rintro ⟨fields, hfields, _, h₁, _, h₂, _, h₃, _, h₄, _, h₅, rfl⟩
    refine ⟨fields, hfields, ?_⟩
    intro t f
    cases f with
    | apiGroup => exact h₁
    | primary => exact h₂
    | configKind => exact h₃
    | secretKind => exact h₄
    | workerKind => exact h₅
  · rintro ⟨fields, hfields, h⟩
    exact ⟨fields, hfields, _, h _ .apiGroup, _, h _ .primary, _, h _ .configKind, _,
      h _ .secretKind, _, h _ .workerKind, rfl⟩

theorem diff?_eq_some_iff {c : Diff} : r.diff? d = some c ↔
    ∃ fields, r.fields? Section.diff.names d = some fields ∧ r.Gives .diff fields c := by
  simp only [diff?, Option.bind_eq_bind, Option.bind_eq_some_iff, Option.pure_def,
    Option.some_inj]
  constructor
  · rintro ⟨fields, hfields, _, h₁, rfl⟩
    refine ⟨fields, hfields, ?_⟩
    intro t f
    cases f with
    | volatileFields => exact h₁
  · rintro ⟨fields, hfields, h⟩
    exact ⟨fields, hfields, _, h _ .volatileFields, rfl⟩

theorem logging?_eq_some_iff {l : Logging} : r.logging? d = some l ↔
    ∃ fields, r.fields? Section.logging.names d = some fields ∧
      r.Gives .logging fields l := by
  simp only [logging?, Option.bind_eq_bind, Option.bind_eq_some_iff, Option.pure_def,
    Option.some_inj]
  constructor
  · rintro ⟨fields, hfields, _, h₁, rfl⟩
    refine ⟨fields, hfields, ?_⟩
    intro t f
    cases f with
    | level => exact h₁
  · rintro ⟨fields, hfields, h⟩
    exact ⟨fields, hfields, _, h _ .level, rfl⟩

theorem primaryKind?_eq_some_iff {p : PrimaryKind} : r.primaryKind? d = some p ↔
    ∃ fields, r.fields? ["kind", "tracks_upgrade"] d = some fields ∧
      fields.required? "kind" r.text? = some p.kind ∧
      fields.optional? "tracks_upgrade" false r.flag? = some p.tracksUpgrade := by
  simp only [primaryKind?, Option.bind_eq_bind, Option.bind_eq_some_iff, Option.pure_def,
    Option.some_inj]
  constructor
  · rintro ⟨fields, hfields, _, hkind, _, hflag, rfl⟩
    exact ⟨fields, hfields, hkind, hflag⟩
  · rintro ⟨fields, hfields, hkind, hflag⟩
    exact ⟨fields, hfields, _, hkind, _, hflag, rfl⟩

/-- A section is read field by field. -/
theorem part?_eq_some_iff {part : sec.Part} : r.part? sec d = some part ↔
    ∃ fields, r.fields? sec.names d = some fields ∧ r.Gives sec fields part := by
  cases sec with
  | labels => exact labels?_eq_some_iff
  | exclusions => exact exclusions?_eq_some_iff
  | kinds => exact kinds?_eq_some_iff
  | diff => exact diff?_eq_some_iff
  | logging => exact logging?_eq_some_iff

theorem settings?_eq_some_iff_part? : r.settings? v = some s ↔
    ∃ fields, r.fields? Section.keys v = some fields ∧ ∀ sec : Section,
      fields.optional? sec.key (sec.part {}) (r.part? sec) = some (sec.part s) := by
  simp only [settings?, Option.bind_eq_bind, Option.bind_eq_some_iff, Option.pure_def,
    Option.some_inj]
  constructor
  · rintro ⟨fields, hfields, _, h₁, _, h₂, _, h₃, _, h₄, _, h₅, rfl⟩
    refine ⟨fields, hfields, ?_⟩
    intro sec
    cases sec with
    | labels => exact h₁
    | exclusions => exact h₂
    | kinds => exact h₃
    | diff => exact h₄
    | logging => exact h₅
  · rintro ⟨fields, hfields, h⟩
    exact ⟨fields, hfields, _, h .labels, _, h .exclusions, _, h .kinds, _, h .diff, _, h .logging,
      rfl⟩

theorem supplied_part_iff {given : Option ν} :
    Supplied (r.part? sec) given (sec.part {}) (sec.part s) ↔
      (∀ d, given = some d → ∃ fields, r.fields? sec.names d = some fields) ∧
        ∀ t (f : Field sec t), Supplied (r.value? t)
          (given.bind fun d => (r.fields? sec.names d).bind (·.lookup f.name))
          (f.get {}) (f.get s) := by
  cases given with
  | none =>
    simp only [Option.bind_none, supplied_none, Section.part_eq_iff]
    exact (and_iff_right nofun).symm
  | some d =>
    rw [supplied_some, part?_eq_some_iff]
    constructor
    · rintro ⟨fields, hfields, hgives⟩
      refine ⟨?_, ?_⟩
      · rintro _ ⟨⟩
        exact ⟨fields, hfields⟩
      · intro t f
        rw [Option.bind_some, hfields, Option.bind_some, ← optional?_eq_some_iff]
        exact hgives t f
    · rintro ⟨hrecord, hsupplied⟩
      obtain ⟨fields, hfields⟩ := hrecord d rfl
      refine ⟨fields, hfields, ?_⟩
      intro t f
      have hfield := hsupplied t f
      rw [Option.bind_some, hfields, Option.bind_some, ← optional?_eq_some_iff] at hfield
      exact hfield

/-- The document is a record, and so is whatever it gives for a section. -/
structure Sectioned (r : Reading ν) (v : ν) : Prop where
  record : ∃ fields, r.fields? Section.keys v = some fields
  sections : ∀ sec d, r.section? v sec = some d → ∃ fields, r.fields? sec.names d = some fields

/-- Settings are read from a document field by field: each is what is given for it, or else its
default. -/
theorem settings?_eq_some_iff : r.settings? v = some s ↔ r.Sectioned v ∧
    ∀ sec t (f : Field sec t), Supplied (r.value? t) (r.given? v f) (f.get {}) (f.get s) := by
  rw [settings?_eq_some_iff_part?]
  simp only [optional?_eq_some_iff, supplied_part_iff]
  have hsection {fields : Fields ν} (hfields : r.fields? Section.keys v = some fields)
      (sec : Section) : r.section? v sec = fields.lookup sec.key := by
    rw [section?, hfields, Option.bind_some]
  constructor
  · rintro ⟨fields, hfields, h⟩
    refine ⟨⟨⟨fields, hfields⟩, ?_⟩, ?_⟩
    · intro sec d hd
      exact (h sec).1 d (hsection hfields sec ▸ hd)
    · intro sec t f
      rw [given?, hsection hfields]
      exact (h sec).2 t f
  · rintro ⟨⟨⟨fields, hfields⟩, hsections⟩, h⟩
    refine ⟨fields, hfields, ?_⟩
    intro sec
    rw [← hsection hfields]
    exact ⟨hsections sec, h sec⟩

end Reading

def assemble (value : (sec : Section) → (t : Form) → Field sec t → t.Value) : Settings where
  labels :=
    { doNotReconcileKey := value _ _ .doNotReconcileKey
      doNotReconcileValue := value _ _ .doNotReconcileValue
      versionKey := value _ _ .versionKey
      canaryKey := value _ _ .canaryKey
      canaryValue := value _ _ .canaryValue }
  exclusions :=
    { ephemeralStatusPrefix := value _ _ .ephemeralStatusPrefix
      ephemeralStatusSuffix := value _ _ .ephemeralStatusSuffix
      overrideConfigName := value _ _ .overrideConfigName
      ignorableSecretNames := value _ _ .ignorableSecretNames }
  kinds :=
    { apiGroup := value _ _ .apiGroup
      primary := value _ _ .primary
      configKind := value _ _ .configKind
      secretKind := value _ _ .secretKind
      workerKind := value _ _ .workerKind }
  diff := { volatileFields := value _ _ .volatileFields }
  logging := { level := value _ _ .level }

theorem get_assemble (value : (sec : Section) → (t : Form) → Field sec t → t.Value)
    {sec : Section} {t : Form} (f : Field sec t) : f.get (assemble value) = value sec t f := by
  cases f <;> rfl

/-- There are settings in a document iff every field that it gives can be read. -/
theorem Reading.exists_settings?_iff {ν : Type} {r : Reading ν} {v : ν} :
    (∃ s, r.settings? v = some s) ↔ r.Sectioned v ∧
      ∀ sec t (f : Field sec t) d, r.given? v f = some d → ∃ a, r.value? t d = some a := by
  simp only [settings?_eq_some_iff]
  constructor
  · rintro ⟨s, hsectioned, h⟩
    refine ⟨hsectioned, ?_⟩
    intro sec t f d hd
    exact ⟨f.get s, (h sec t f).2 d hd⟩
  · rintro ⟨hsectioned, h⟩
    refine ⟨assemble fun sec t f =>
      ((r.given? v f).bind (r.value? t)).getD (f.get {}), hsectioned, ?_⟩
    intro sec t f
    rw [get_assemble]
    cases hgiven : r.given? v f with
    | none => exact supplied_none.2 rfl
    | some d =>
      obtain ⟨a, ha⟩ := h sec t f d hgiven
      rw [supplied_some, Option.bind_some, ha, Option.getD_some]

end ReconcileTrigger.Settings
