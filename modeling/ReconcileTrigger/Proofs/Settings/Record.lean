import ReconcileTrigger.Proofs.Document.Overlay
import ReconcileTrigger.Proofs.Settings.Validation

/-!
Settings as documents with every field. They are given back by every reading that takes texts,
flags, lists and tables as what they are, and they stay what they are when they are laid over
nothing.
-/

namespace ReconcileTrigger

namespace Settings

def textList (values : List String) : Document :=
  .list (values.map .text)

def Labels.fields (l : Labels) : Fields Document :=
  [ ("do_not_reconcile_key", .text l.doNotReconcileKey),
    ("do_not_reconcile_value", .text l.doNotReconcileValue),
    ("version_key", .text l.versionKey),
    ("canary_key", .text l.canaryKey),
    ("canary_value", .text l.canaryValue) ]

def Exclusions.fields (e : Exclusions) : Fields Document :=
  [ ("ephemeral_status_prefix", .text e.ephemeralStatusPrefix),
    ("ephemeral_status_suffix", .text e.ephemeralStatusSuffix),
    ("override_config_name", .text e.overrideConfigName),
    ("ignorable_secret_names", textList e.ignorableSecretNames) ]

def PrimaryKind.fields (p : PrimaryKind) : Fields Document :=
  [("kind", .text p.kind), ("tracks_upgrade", .flag p.tracksUpgrade)]

/-- The fields of the kinds without the primary ones, unless there are none of these. -/
def Kinds.ownFields (k : Kinds) : Fields Document :=
  [("api_group", .text k.apiGroup)] ++ (if k.primary.isEmpty then [("primary", .list [])] else []) ++
    [ ("config_kind", .text k.configKind),
      ("secret_kind", .text k.secretKind),
      ("worker_kind", .text k.workerKind) ]

def Kinds.primaryFields (k : Kinds) : Fields Document :=
  if k.primary.isEmpty then []
  else [("primary", .list (k.primary.map fun p => .table p.fields))]

def Diff.fields (d : Diff) : Fields Document :=
  [("volatile_fields", textList d.volatileFields)]

def Logging.fields (l : Logging) : Fields Document :=
  [("level", .text l.level)]

def fields (s : Settings) : Fields Document :=
  [ ("labels", .table s.labels.fields),
    ("exclusions", .table s.exclusions.fields),
    ("kinds", .table (s.kinds.ownFields ++ s.kinds.primaryFields)),
    ("diff", .table s.diff.fields),
    ("logging", .table s.logging.fields) ]

/-- A reading that takes every part of a document as what it is. -/
structure Reading.Faithful (r : Reading Document) : Prop where
  fields? : ∀ names entries, r.fields? names (.table entries) = some entries
  text? : ∀ s, r.text? (.text s) = some s
  flag? : ∀ b, r.flag? (.flag b) = some b
  elements? : ∀ elements, r.elements? (.list elements) = some elements

theorem faithful_lenient : lenient.Faithful :=
  ⟨fun _ _ => rfl, fun _ => rfl, fun _ => rfl, fun _ => rfl⟩

def literal : Reading Document where
  fields? _ := Document.entries?
  text? d := match d with
    | .text s => some s
    | _ => none
  flag? d := match d with
    | .flag b => some b
    | _ => none
  elements? := Document.elements?

theorem faithful_literal : literal.Faithful :=
  ⟨fun _ _ => rfl, fun _ => rfl, fun _ => rfl, fun _ => rfl⟩

namespace Reading.Faithful

variable {r : Reading Document}

theorem texts?_textList (h : r.Faithful) (values : List String) :
    r.texts? (textList values) = some values := by
  rw [texts?, textList, h.elements?]
  exact mapM_map_eq_some h.text? values

theorem labels?_fields (h : r.Faithful) (l : Labels) : r.labels? (.table l.fields) = some l := by
  rw [labels?, h.fields?]
  simp [Fields.optional?, Labels.fields, List.lookup_cons, h.text?]

theorem exclusions?_fields (h : r.Faithful) (e : Exclusions) :
    r.exclusions? (.table e.fields) = some e := by
  rw [exclusions?, h.fields?]
  simp [Fields.optional?, Exclusions.fields, List.lookup_cons, h.text?, h.texts?_textList]

theorem primaryKind?_fields (h : r.Faithful) (p : PrimaryKind) :
    r.primaryKind? (.table p.fields) = some p := by
  rw [primaryKind?, h.fields?]
  simp [Fields.optional?, Fields.required?, PrimaryKind.fields, List.lookup_cons, h.text?, h.flag?]

theorem kinds?_fields (h : r.Faithful) (k : Kinds) :
    r.kinds? (.table (k.ownFields ++ k.primaryFields)) = some k := by
  have hprimary (l : List PrimaryKind) :
      r.primaryKinds? (.list (l.map fun p => .table p.fields)) = some l := by
    rw [primaryKinds?, h.elements?]
    exact mapM_map_eq_some h.primaryKind?_fields l
  rw [kinds?, h.fields?]
  obtain ⟨apiGroup, primary, configKind, secretKind, workerKind⟩ := k
  cases primary with
  | nil =>
    have hempty : r.primaryKinds? (.list []) = some [] := hprimary []
    simp [Fields.optional?, Kinds.ownFields, Kinds.primaryFields, List.lookup_cons, h.text?, hempty]
  | cons p rest =>
    have hlist := hprimary (p :: rest)
    rw [List.map_cons] at hlist
    simp [Fields.optional?, Kinds.ownFields, Kinds.primaryFields, List.lookup_cons, h.text?, hlist]

theorem diff?_fields (h : r.Faithful) (d : Diff) : r.diff? (.table d.fields) = some d := by
  rw [diff?, h.fields?]
  simp [Fields.optional?, Diff.fields, h.texts?_textList]

theorem logging?_fields (h : r.Faithful) (l : Logging) :
    r.logging? (.table l.fields) = some l := by
  rw [logging?, h.fields?]
  simp [Fields.optional?, Logging.fields, h.text?]

/-- Settings are given back section by section. -/
theorem settings?_fields (h : r.Faithful) (s : Settings) :
    r.settings? (.table s.fields) = some s := by
  rw [settings?, h.fields?]
  simp [Fields.optional?, Settings.fields, List.lookup_cons, h.labels?_fields,
    h.exclusions?_fields, h.kinds?_fields, h.diff?_fields, h.logging?_fields]

end Reading.Faithful

theorem plain_textList (values : List String) : (textList values).Plain :=
  Document.plain_list _

theorem Kinds.nodup_fields (k : Kinds) :
    ((k.ownFields ++ k.primaryFields).map Prod.fst).Nodup := by
  cases hempty : k.primary.isEmpty with
  | true => simp [Kinds.ownFields, Kinds.primaryFields, hempty]
  | false => simp [Kinds.ownFields, Kinds.primaryFields, hempty]

theorem Kinds.plain_fields (k : Kinds) : ∀ e ∈ k.ownFields ++ k.primaryFields, e.2.Plain := by
  cases hempty : k.primary.isEmpty with
  | true =>
    simp [Kinds.ownFields, Kinds.primaryFields, hempty, Document.plain_text, Document.plain_list]
  | false =>
    simp [Kinds.ownFields, Kinds.primaryFields, hempty, Document.plain_text, Document.plain_list]

/-- No section has a field that changes when it is laid over nothing. -/
theorem plain_sections (s : Settings) : ∀ e ∈ s.fields, e.2.Plain := by
  have hlabels : Document.Plain (.table s.labels.fields) := by
    refine Document.plain_table ?_ (by simp [Labels.fields])
    simp [Labels.fields, Document.plain_text]
  have hexclusions : Document.Plain (.table s.exclusions.fields) := by
    refine Document.plain_table ?_ (by simp [Exclusions.fields])
    simp [Exclusions.fields, Document.plain_text, plain_textList]
  have hkinds : Document.Plain (.table (s.kinds.ownFields ++ s.kinds.primaryFields)) :=
    Document.plain_table s.kinds.plain_fields s.kinds.nodup_fields
  have hdiff : Document.Plain (.table s.diff.fields) := by
    refine Document.plain_table ?_ (by simp [Diff.fields])
    simp [Diff.fields, plain_textList]
  have hlogging : Document.Plain (.table s.logging.fields) := by
    refine Document.plain_table ?_ (by simp [Logging.fields])
    simp [Logging.fields, Document.plain_text]
  simp [Settings.fields, hlabels, hexclusions, hkinds, hdiff, hlogging]

theorem overlayFields_fields (s : Settings) : Document.overlayFields [] s.fields = s.fields := by
  have hkeys : ∀ e ∈ s.fields, ∀ c ∈ e.1.toList, Place.isNameChar c = true := by
    have hnames : (s.fields.map Prod.fst).all (fun key => key.toList.all Place.isNameChar) =
        true := by
      change ["labels", "exclusions", "kinds", "diff", "logging"].all _ = true
      decide
    exact fun e he => List.all_eq_true.1 (List.all_eq_true.1 hnames e.1 (List.mem_map_of_mem he))
  exact Document.overlayFields_eq_append hkeys s.plain_sections (by simp [Settings.fields])

end Settings

end ReconcileTrigger
