import ReconcileTrigger.Proofs.Record
import ReconcileTrigger.Proofs.Settings.Field

/-!
Settings from documents that give some of the fields. Records are objects here, and nothing in a
document is converted. Whatever is given takes the place of its default, a list as a whole, and
names that no field has count for nothing. A document is refused iff something that it gives has
the wrong type, or a primary kind is without its name.
-/

namespace ReconcileTrigger.Settings

open Json (Value)

def givenFor (v : Value) {sec : Section} {t : Form} (f : Field sec t) : Option Value :=
  (v.member? sec.key).bind (Value.member? f.name)

/-- The element of a list that stands for a primary kind. It does not track upgrades unless it says
so. -/
def IsEntry (e : Value) (p : PrimaryKind) : Prop :=
  e.member? "kind" = some (.string p.kind) ∧
    (e.member? "tracks_upgrade" = some (.bool p.tracksUpgrade) ∨
      e.member? "tracks_upgrade" = none ∧ p.tracksUpgrade = false)

def StandsFor : (t : Form) → Value → t.Value → Prop
  | .text, d, s => d = .string s
  | .names, d, l => d = texts l
  | .primaryKinds, d, l => ∃ elements, d = .array elements ∧ List.Forall₂ IsEntry elements l

/-- The document is an object, and no record inside it is written as a list. -/
structure InObjectForm (v : Value) : Prop where
  object : v.isObject = true
  sections : ∀ (sec : Section) elements, v.member? sec.key ≠ some (.array elements)
  entries : ∀ elements, givenFor v .primary = some (.array elements) →
    ∀ e ∈ elements, ∀ parts, e ≠ .array parts

inductive IsFaultyEntry (e : Value) : Prop
  | noObject (h : e.isObject = false)
  | noKind (h : e.member? "kind" = none)
  | kind {d : Value} (hd : e.member? "kind" = some d) (h : ∀ s, d ≠ .string s)
  | tracksUpgrade {d : Value} (hd : e.member? "tracks_upgrade" = some d) (h : ∀ b, d ≠ .bool b)

inductive IsFaultyValue : Form → Value → Prop
  | text {d : Value} (h : ∀ s, d ≠ .string s) : IsFaultyValue .text d
  | names {d : Value} (h : ∀ l, d ≠ texts l) : IsFaultyValue .names d
  | primaryKinds {d : Value} (h : ∀ elements, d ≠ .array elements) : IsFaultyValue .primaryKinds d
  | entry {elements : List Value} {e : Value} (he : e ∈ elements) (h : IsFaultyEntry e) :
      IsFaultyValue .primaryKinds (.array elements)

/-- Something that the document gives has the wrong type, or a primary kind is without its name. -/
inductive IsFaulty (v : Value) : Prop
  | record {sec : Section} {d : Value} (hd : v.member? sec.key = some d) (h : d.isObject = false)
  | field {sec : Section} {t : Form} {f : Field sec t} {d : Value} (hd : givenFor v f = some d)
      (h : IsFaultyValue t d)

theorem fields?_eq_some_iff {names : List String} {d : Value} {fields : Fields Value}
    (h : ∀ parts, d ≠ .array parts) :
    strict.fields? names d = some fields ↔ d = .object fields := by
  cases d with
  | object members => simp [strict, Value.fields?]
  | array parts => exact absurd rfl (h parts)
  | _ => exact iff_of_false nofun nofun

section Entries

variable {e : Value}

theorem isEntry_iff (h : ∀ parts, e ≠ .array parts) {p : PrimaryKind} :
    strict.primaryKind? e = some p ↔ IsEntry e p := by
  simp only [Reading.primaryKind?_eq_some_iff, fields?_eq_some_iff h, required?_eq_some_iff,
    optional?_eq_some_iff]
  constructor
  · rintro ⟨members, rfl, ⟨d, hd, hkind⟩, hflag⟩
    obtain rfl := Value.string?_eq_some_iff.1 hkind
    refine ⟨hd, ?_⟩
    cases hgiven : members.lookup "tracks_upgrade" with
    | none => exact .inr ⟨hgiven, hflag.1 hgiven⟩
    | some d =>
      obtain rfl := Value.bool?_eq_some_iff.1 (hflag.2 d hgiven)
      exact .inl hgiven
  · rintro ⟨hkind, hflag⟩
    obtain ⟨members, rfl, _⟩ := Value.exists_object_of_member? hkind
    refine ⟨members, rfl, ⟨_, hkind, rfl⟩, ?_⟩
    rcases hflag with hgiven | ⟨hnone, hfalse⟩
    · have hlookup : members.lookup "tracks_upgrade" = some (.bool p.tracksUpgrade) := hgiven
      rw [hlookup, supplied_some]
      rfl
    · have hlookup : members.lookup "tracks_upgrade" = none := hnone
      rw [hlookup, supplied_none]
      exact hfalse

theorem exists_isEntry_iff : (∃ p, IsEntry e p) ↔ ¬ IsFaultyEntry e := by
  constructor
  · rintro ⟨p, hkind, hflag⟩ hfaulty
    cases hfaulty with
    | noObject hobject =>
      obtain ⟨members, rfl, _⟩ := Value.exists_object_of_member? hkind
      contradiction
    | noKind hnone =>
      rw [hkind] at hnone
      contradiction
    | kind hd hwrong =>
      rw [hkind] at hd
      exact hwrong _ (Option.some.inj hd).symm
    | tracksUpgrade hd hwrong =>
      rw [hd] at hflag
      obtain hgiven | ⟨hnone, _⟩ := hflag
      · exact hwrong _ (Option.some.inj hgiven)
      · contradiction
  · intro hfaulty
    have hkind : ∃ s, e.member? "kind" = some (.string s) := by
      cases hd : e.member? "kind" with
      | none => exact absurd (.noKind hd) hfaulty
      | some d =>
        by_contra hwrong
        exact hfaulty (.kind hd fun s hs => hwrong ⟨s, congrArg some hs⟩)
    obtain ⟨s, hs⟩ := hkind
    cases hd : e.member? "tracks_upgrade" with
    | none => exact ⟨⟨s, false⟩, hs, .inr ⟨hd, rfl⟩⟩
    | some d =>
      have hflag : ∃ b, d = .bool b := by
        by_contra hwrong
        exact hfaulty (.tracksUpgrade hd fun b hb => hwrong ⟨b, hb⟩)
      obtain ⟨b, rfl⟩ := hflag
      exact ⟨⟨s, b⟩, hs, .inl hd⟩

end Entries

/-- A list is read element by element. -/
theorem mapM_elements?_eq_some_iff {α : Type} {read : Value → Option α} {R : Value → α → Prop}
    {d : Value} {l : List α}
    (h : ∀ elements, d = .array elements → ∀ e ∈ elements, ∀ a, read e = some a ↔ R e a) :
    ((strict.elements? d).bind fun elements => elements.mapM read) = some l ↔
      ∃ elements, d = .array elements ∧ List.Forall₂ R elements l := by
  simp only [Option.bind_eq_some_iff, mapM_eq_some_iff_forall₂, List.forall₂_iff_zip]
  refine exists_congr fun elements => ?_
  rw [show strict.elements? d = some elements ↔ d = .array elements from Value.array?_eq_some_iff]
  refine and_congr_right fun hd => and_congr_right fun _ => ?_
  constructor
  · intro hread a b hmem
    exact (h elements hd a (List.of_mem_zip hmem).1 b).1 (hread hmem)
  · intro hread a b hmem
    exact (h elements hd a (List.of_mem_zip hmem).1 b).2 (hread hmem)

theorem exists_strings_iff {d : Value} {l : List String} :
    (∃ elements, d = .array elements ∧ List.Forall₂ (fun e s => e = .string s) elements l) ↔
      d = texts l := by
  have hstrings (elements : List Value) :
      List.Forall₂ (fun e s => e = .string s) elements l ↔ elements = l.map .string := by
    rw [← List.forall₂_map_right_iff (R := Eq), List.forall₂_eq_eq_eq]
  simp only [hstrings, exists_eq_right]
  rfl

/-- What stands for a value is what is read as that value. -/
theorem value?_eq_some_iff {t : Form} {d : Value} {a : t.Value}
    (h : t = .primaryKinds → ∀ elements, d = .array elements → ∀ e ∈ elements, ∀ parts,
      e ≠ .array parts) :
    strict.value? t d = some a ↔ StandsFor t d a := by
  cases t with
  | text => exact Value.string?_eq_some_iff
  | names =>
    refine (mapM_elements?_eq_some_iff ?_).trans exists_strings_iff
    intro _ _ e _ s
    exact Value.string?_eq_some_iff
  | primaryKinds =>
    refine mapM_elements?_eq_some_iff ?_
    intro elements hd e he p
    exact isEntry_iff (h rfl elements hd e he)

theorem exists_standsFor_iff {t : Form} {d : Value} :
    (∃ a : t.Value, StandsFor t d a) ↔ ¬ IsFaultyValue t d := by
  constructor
  · rintro ⟨a, ha⟩ hfaulty
    cases hfaulty with
    | text h => exact h a ha
    | names h => exact h a ha
    | primaryKinds h =>
      obtain ⟨elements, hd, _⟩ := ha
      exact h elements hd
    | entry he h =>
      obtain ⟨_, ⟨⟩, hentries⟩ := ha
      exact exists_isEntry_iff.1 (exists_forall₂_iff.1 ⟨a, hentries⟩ _ he) h
  · intro hfaulty
    cases t with
    | text =>
      by_contra hnone
      exact hfaulty (.text fun s hs => hnone ⟨s, hs⟩)
    | names =>
      by_contra hnone
      exact hfaulty (.names fun l hl => hnone ⟨l, hl⟩)
    | primaryKinds =>
      have harray : ∃ elements, d = .array elements := by
        by_contra hnone
        exact hfaulty (.primaryKinds fun elements hd => hnone ⟨elements, hd⟩)
      obtain ⟨elements, rfl⟩ := harray
      have hentries : ∃ l, List.Forall₂ IsEntry elements l :=
        exists_forall₂_iff.2 fun e he => exists_isEntry_iff.2 fun h => hfaulty (.entry he h)
      obtain ⟨l, hl⟩ := hentries
      exact ⟨l, elements, rfl, hl⟩

theorem fields?_bind_lookup {names : List String} {name : String} {d : Value}
    (h : ∀ parts, d ≠ .array parts) :
    ((strict.fields? names d).bind fun fields => fields.lookup name) = d.member? name := by
  cases d with
  | array parts => exact absurd rfl (h parts)
  | _ => rfl

namespace InObjectForm

variable {v : Value}

theorem section?_eq (h : InObjectForm v) (sec : Section) :
    strict.section? v sec = v.member? sec.key := by
  obtain ⟨members, rfl⟩ := Value.exists_object_of_isObject h.object
  rfl

theorem given?_eq (h : InObjectForm v) {sec : Section} {t : Form} (f : Field sec t) :
    strict.given? v f = givenFor v f := by
  rw [Reading.given?, givenFor, h.section?_eq]
  cases hd : v.member? sec.key with
  | none => rfl
  | some d => exact fields?_bind_lookup fun parts hparts => h.sections sec parts (hparts ▸ hd)

theorem value?_iff (h : InObjectForm v) {sec : Section} {t : Form} {f : Field sec t} {d : Value}
    (hd : givenFor v f = some d) {a : t.Value} :
    strict.value? t d = some a ↔ StandsFor t d a := by
  refine value?_eq_some_iff ?_
  rintro rfl elements rfl
  cases f with
  | primary => exact h.entries elements hd

theorem sectioned_iff (h : InObjectForm v) :
    strict.Sectioned v ↔ ∀ (sec : Section) d, v.member? sec.key = some d → d.isObject = true := by
  constructor
  · intro hsectioned sec d hd
    have hnolist : ∀ parts, d ≠ .array parts := fun parts hparts =>
      h.sections sec parts (hparts ▸ hd)
    obtain ⟨fields, hfields⟩ := hsectioned.sections sec d ((h.section?_eq sec).trans hd)
    rw [(fields?_eq_some_iff hnolist).1 hfields]
    rfl
  · intro hobjects
    obtain ⟨members, rfl⟩ := Value.exists_object_of_isObject h.object
    refine ⟨⟨members, rfl⟩, ?_⟩
    intro sec d hd
    rw [h.section?_eq] at hd
    obtain ⟨members, rfl⟩ := Value.exists_object_of_isObject (hobjects sec d hd)
    exact ⟨members, rfl⟩

theorem exists_ofValue?_iff (h : InObjectForm v) : (∃ s, ofValue? v = some s) ↔ ¬ IsFaulty v := by
  simp only [ofValue?, Reading.exists_settings?_iff, h.sectioned_iff, h.given?_eq]
  constructor
  · rintro ⟨hobjects, hreadable⟩ hfaulty
    cases hfaulty with
    | record hd hnone =>
      rw [hobjects _ _ hd] at hnone
      contradiction
    | field hd hwrong =>
      obtain ⟨a, ha⟩ := hreadable _ _ _ _ hd
      exact exists_standsFor_iff.1 ⟨a, (h.value?_iff hd).1 ha⟩ hwrong
  · intro hfaulty
    refine ⟨?_, ?_⟩
    · intro sec d hd
      by_contra hnone
      exact hfaulty (.record hd (Bool.eq_false_iff.2 hnone))
    · intro sec t f d hd
      obtain ⟨a, ha⟩ := exists_standsFor_iff.2 fun hwrong => hfaulty (.field hd hwrong)
      exact ⟨a, (h.value?_iff hd).2 ha⟩

end InObjectForm

/-- A section that gives none of its fields, if it is there at all. -/
def GivesNothing (v : Value) (sec : Section) : Prop :=
  ∀ d, v.member? sec.key = some d → ∀ name ∈ sec.names, d.member? name = none

theorem name_mem_names {sec : Section} {t : Form} (f : Field sec t) : f.name ∈ sec.names := by
  cases f <;> decide

theorem GivesNothing.givenFor_eq_none {v : Value} {sec : Section} (h : GivesNothing v sec)
    {t : Form} (f : Field sec t) : givenFor v f = none := by
  rw [givenFor, Option.bind_eq_none_iff]
  intro d hd
  exact h d hd f.name (name_mem_names f)

/-- A document is read iff nothing that it gives is faulty. The settings have what is given, and the
defaults for the rest. -/
theorem given_fields_replace_defaults {v : Value} (h : InObjectForm v) :
    (ofValue? v = none ↔ IsFaulty v) ∧ ∀ s, ofValue? v = some s →
      (∀ sec t (f : Field sec t), (givenFor v f = none → f.get s = f.get {}) ∧
        ∀ d, givenFor v f = some d → StandsFor t d (f.get s)) ∧
      ∀ sec, GivesNothing v sec → sec.part s = sec.part {} := by
  constructor
  · rw [← not_iff_not, ← h.exists_ofValue?_iff, ← ne_eq, Option.ne_none_iff_exists']
  · intro s hs
    obtain ⟨_, hsupplied⟩ := Reading.settings?_eq_some_iff.1 hs
    simp only [h.given?_eq] at hsupplied
    refine ⟨?_, ?_⟩
    · intro sec t f
      obtain ⟨hdefault, hgiven⟩ := hsupplied sec t f
      exact ⟨hdefault, fun d hd => (h.value?_iff hd).1 (hgiven d hd)⟩
    · intro sec hnothing
      refine Section.part_eq_iff.2 fun t f => ?_
      exact (hsupplied sec t f).1 (hnothing.givenFor_eq_none f)

/-- A document with two of the fields, an empty section and names that no field has. -/
def sparseDocument : Value :=
  .object
    [ ("exclusions", .object []),
      ("kinds", .object
        [ ("color", .null),
          ("primary", .array [.object [("kind", .string "Pool"), ("size", .null)]]) ]),
      ("labels", .object [("version_key", .string "release")]),
      ("origin", .array []) ]

theorem inObjectForm_sparseDocument : InObjectForm sparseDocument := by
  refine ⟨rfl, ?_, ?_⟩
  · intro sec elements
    cases sec with
    | _ => simp [sparseDocument, Value.member?, Section.key, Fields.lookup_cons_eq_ite]
  · simp [sparseDocument, givenFor, Value.member?, Section.key, Field.name,
      Fields.lookup_cons_eq_ite]

theorem given_fields_replace_defaults_sparse :
    InObjectForm sparseDocument ∧ ¬ IsFaulty sparseDocument ∧
      ∃ s, ofValue? sparseDocument = some s ∧ s.labels.versionKey = "release" ∧
        s.labels.canaryKey = "mon_canary" ∧ s.kinds.primary = [⟨"Pool", false⟩] ∧
        s.exclusions = {} := by
  have hread : ofValue? sparseDocument =
      some { labels := { versionKey := "release" }, kinds := { primary := [⟨"Pool", false⟩] } } := by
    decide +kernel
  obtain ⟨hrefused, hsettings⟩ := given_fields_replace_defaults inObjectForm_sparseDocument
  obtain ⟨hfields, hsections⟩ := hsettings _ hread
  refine ⟨inObjectForm_sparseDocument, ?_, _, hread, ?_, ?_, rfl, ?_⟩
  · rw [← hrefused, hread]
    exact nofun
  · have hgiven : givenFor sparseDocument .versionKey = some (.string "release") := by
      simp [sparseDocument, givenFor, Value.member?, Section.key, Field.name,
        Fields.lookup_cons_eq_ite]
    exact (Value.string.inj ((hfields .labels .text .versionKey).2 _ hgiven)).symm
  · refine (hfields .labels .text .canaryKey).1 ?_
    simp [sparseDocument, givenFor, Value.member?, Section.key, Field.name,
      Fields.lookup_cons_eq_ite]
  · refine hsections .exclusions ?_
    simp [GivesNothing, sparseDocument, Value.member?, Section.key]

example : ofValue? (.object [("logging", .object [("level", .null)])]) = none := by
  decide +kernel

end ReconcileTrigger.Settings
