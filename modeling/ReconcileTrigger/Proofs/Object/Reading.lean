import Mathlib.Data.List.Forall2
import Mathlib.Data.List.Nodup
import ReconcileTrigger.Event
import ReconcileTrigger.Proofs.Json.Reading
import ReconcileTrigger.Proofs.Record

/-!
The objects and events that are read from documents. Well-formed documents give well-formed
objects, and the body that is read is what the document has outside of the typed fields. An event
is read iff the document holds a readable snapshot for each of its objects.
-/

namespace ReconcileTrigger

open Json (Value)

structure Object.WellFormed (o : Object) : Prop where
  body : ∀ key v, o.field? key = some v → v.WellFormed
  managedFields : ∀ v ∈ o.metadata.managedFields, v.WellFormed

/-- No document of the body takes the place of a typed field. -/
def Object.KeepsTyped (o : Object) : Prop :=
  ∀ key ∈ typedKeys, o.field? key = none

/-- The body has the members of the document that are not typed, and nothing else. -/
def Object.HasBodyOf (o : Object) (v : Value) : Prop :=
  ∀ key, o.field? key = if key ∈ typedKeys then none else v.member? key

def Event.objects : Event → List Object
  | .create o => [o]
  | .update old new => [old, new]
  | .delete o => [o]
  | .generic o => [o]

section Reading

variable {v : Value}

theorem Json.Value.wellFormed_of_fields? {names : List String} {fields : Fields Value}
    (hv : v.WellFormed) (h : v.fields? names = some fields) : ∀ e ∈ fields, e.2.WellFormed := by
  cases v with
  | object members =>
    obtain rfl := Option.some.inj h
    exact (Value.wellFormed_object_iff.1 hv).2
  | array elements =>
    simp only [Value.fields?] at h
    split at h
    · obtain rfl := Option.some.inj h
      intro e he
      exact Value.wellFormed_array_iff.1 hv _ (List.of_mem_zip he).2
    · contradiction
  | _ => contradiction

theorem Fields.optional?_eq_some {α : Type} {fields : Fields Value} {name : String} {default a : α}
    {read : Value → Option α} (h : fields.optional? name default read = some a) :
    a = default ∨ ∃ w, (name, w) ∈ fields ∧ read w = some a := by
  unfold optional? at h
  split at h
  · rename_i w hlookup
    exact .inr ⟨w, mem_of_lookup_eq_some hlookup, h⟩
  · exact .inl (Option.some.inj h).symm

theorem Metadata.wellFormed_of_ofValue? {m : Metadata} (hv : v.WellFormed)
    (h : ofValue? v = some m) : ∀ w ∈ m.managedFields, w.WellFormed := by
  simp only [ofValue?, Option.bind_eq_bind, Option.bind_eq_some_iff, Option.pure_def] at h
  obtain ⟨fields, hfields, _, _, _, _, _, _, _, _, _, _, _, _, _, _, _, _, _, _, _, _, managed,
    hmanaged, hm⟩ := h
  obtain rfl := Option.some.inj hm
  rcases Fields.optional?_eq_some hmanaged with rfl | ⟨w, hw, hread⟩
  · intro w hw
    exact absurd hw List.not_mem_nil
  · have hwf := Value.wellFormed_of_fields? hv hfields _ hw
    cases w with
    | array elements =>
      obtain rfl := Option.some.inj hread
      exact Value.wellFormed_array_iff.1 hwf
    | _ => contradiction

namespace Object

variable {o : Object}

theorem ofSnapshot_eq_ok_iff : ofSnapshot v = .ok o ↔ ofValue? v = some o := by
  unfold ofSnapshot
  cases ofValue? v <;> simp

/-- An object is read iff its typed fields are, and its body is what the snapshot has besides. -/
theorem ofValue?_eq_some_iff :
    ofValue? v = some o ↔ ∃ members, v = .object members ∧
      Fields.optional? members "apiVersion" "" Value.string? = some o.apiVersion ∧
      Fields.required? members "kind" Value.string? = some o.kind ∧
      Fields.optional? members "metadata" {} Metadata.ofValue? = some o.metadata ∧
      o.body = Dict.ofList (eraseEntries typedKeys members) := by
  constructor
  · intro h
    cases v with
    | object members =>
      simp only [ofValue?, Option.bind_eq_bind, Option.bind_eq_some_iff, Option.pure_def] at h
      obtain ⟨version, hversion, kind, hkind, metadata, hmetadata, ho⟩ := h
      obtain rfl := Option.some.inj ho
      refine ⟨members, rfl, hversion, hkind, hmetadata, ?_⟩
      simp [eraseEntries]
    | _ => contradiction
  · rintro ⟨members, rfl, hversion, hkind, hmetadata, hbody⟩
    obtain ⟨version, kind, metadata, body⟩ := o
    obtain rfl : body = Dict.ofList (eraseEntries typedKeys members) := hbody
    simp only [ofValue?, hversion, hkind, hmetadata, Option.bind_eq_bind, Option.bind_some,
      Option.pure_def]
    simp [eraseEntries]

/-- A document of the body is a member of the snapshot that is not typed. -/
theorem mem_of_field?_eq_some {members : List (String × Value)}
    (hbody : o.body = Dict.ofList (eraseEntries typedKeys members)) {key : String} {w : Value}
    (h : o.field? key = some w) : (key, w) ∈ members ∧ key ∉ typedKeys := by
  rw [field?, hbody] at h
  have hmem := List.mem_filter.1 (Dict.mem_of_get?_ofList h)
  simpa using hmem

theorem keepsTyped_of_ofValue? (h : ofValue? v = some o) : o.KeepsTyped := by
  obtain ⟨members, _, _, _, _, hbody⟩ := ofValue?_eq_some_iff.1 h
  intro key hkey
  apply Option.eq_none_iff_forall_ne_some.2
  intro w hw
  exact (mem_of_field?_eq_some hbody hw).2 hkey

/-- The members of a snapshot that are not typed are the body as they are. -/
theorem hasBodyOf_of_ofValue? (hv : v.WellFormed) (h : ofValue? v = some o) : o.HasBodyOf v := by
  obtain ⟨members, rfl, _, _, _, hbody⟩ := ofValue?_eq_some_iff.1 h
  intro key
  rw [field?, hbody]
  exact Dict.get?_ofList_eraseEntries (Value.wellFormed_object_iff.1 hv).1 typedKeys key

theorem wellFormed_of_ofValue? (hv : v.WellFormed) (h : ofValue? v = some o) : o.WellFormed := by
  obtain ⟨members, rfl, _, _, hmetadata, hbody⟩ := ofValue?_eq_some_iff.1 h
  have hmembers := (Value.wellFormed_object_iff.1 hv).2
  constructor
  · intro key w hw
    exact hmembers _ (mem_of_field?_eq_some hbody hw).1
  · rcases Fields.optional?_eq_some hmetadata with hdefault | ⟨w, hw, hread⟩
    · rw [hdefault]
      exact fun w hw => absurd hw List.not_mem_nil
    · exact Metadata.wellFormed_of_ofValue? (hmembers _ hw) hread

end Object

theorem exists_mem_of_forall₂ {α β : Type} {R : α → β → Prop} {l : List α} {r : List β}
    (h : List.Forall₂ R l r) {b : β} (hb : b ∈ r) : ∃ a ∈ l, R a b := by
  induction h with
  | nil => exact absurd hb List.not_mem_nil
  | cons hfirst _ ih =>
    rcases List.mem_cons.1 hb with rfl | hb
    · exact ⟨_, List.mem_cons_self .., hfirst⟩
    · obtain ⟨a, ha, hR⟩ := ih hb
      exact ⟨a, List.mem_cons_of_mem _ ha, hR⟩

namespace Event

variable {e : Event} {snapshots : List Value}

theorem Tag.ofName?_eq_some_iff {s : String} {tag : Tag} : ofName? s = some tag ↔ s = tag.name := by
  constructor
  · intro h
    have hname : (tag.name == s) = true := List.find?_some (p := fun t : Tag => t.name == s) h
    exact (beq_iff_eq.1 hname).symm
  · rintro rfl
    cases tag <;> rfl

/-- Snapshots make an event with the tag iff they are as many as it has objects, and each is
read as one of them. -/
theorem ofSnapshots?_eq_some_iff {tag : Tag} :
    ofSnapshots? tag snapshots = some e ↔
      e.tag = tag ∧ List.Forall₂ (fun w o => Object.ofValue? w = some o) snapshots e.objects := by
  constructor
  · intro h
    unfold ofSnapshots? at h
    split at h
    case h_2 old new =>
      simp only [Option.bind_eq_bind, Option.bind_eq_some_iff, Option.pure_def] at h
      obtain ⟨o, ho, o', ho', he⟩ := h
      obtain rfl := Option.some.inj he
      exact ⟨rfl, .cons ho (.cons ho' .nil)⟩
    case h_5 => contradiction
    all_goals
      obtain ⟨o, ho, rfl⟩ := Option.map_eq_some_iff.1 h
      exact ⟨rfl, .cons ho .nil⟩
  · rintro ⟨rfl, hobjects⟩
    cases e with
    | update old new =>
      obtain ⟨w, rest, hold, hrest, rfl⟩ := List.forall₂_cons_right_iff.1 hobjects
      obtain ⟨w', rest', hnew, hrest', rfl⟩ := List.forall₂_cons_right_iff.1 hrest
      obtain rfl := List.forall₂_nil_right_iff.1 hrest'
      simp only [tag, ofSnapshots?, hold, hnew, Option.bind_eq_bind, Option.bind_some,
        Option.pure_def]
    | _ o =>
      obtain ⟨w, rest, ho, hrest, rfl⟩ := List.forall₂_cons_right_iff.1 hobjects
      obtain rfl := List.forall₂_nil_right_iff.1 hrest
      simp only [tag, ofSnapshots?, ho, Option.map_some]

/-- The document holds the snapshots of an event with the tag, in one of the two forms: an object
with a member for each of them, or an array. -/
def Carries (v : Value) (tag : Tag) (snapshots : List Value) : Prop :=
  (v.member? "type" = some (.string tag.name) ∧
      List.Forall₂ (fun name w => v.member? name = some w) (objectNames tag) snapshots) ∨
    v = .array (.string tag.name :: snapshots)

/-- An event is read iff the document holds a readable snapshot for each of its objects. -/
theorem ofValue?_eq_some_iff :
    ofValue? v = some e ↔ ∃ snapshots, Carries v e.tag snapshots ∧
      List.Forall₂ (fun w o => Object.ofValue? w = some o) snapshots e.objects := by
  constructor
  · intro h
    unfold ofValue? at h
    split at h
    · rename_i members
      simp only [Option.bind_eq_bind, Option.bind_eq_some_iff] at h
      obtain ⟨tag, ⟨s, ⟨w, hw, hs⟩, htag⟩, snapshots, hsnapshots, he⟩ := h
      obtain ⟨rfl, hobjects⟩ := ofSnapshots?_eq_some_iff.1 he
      obtain rfl := Value.string?_eq_some_iff.1 hs
      obtain rfl := Tag.ofName?_eq_some_iff.1 htag
      exact ⟨snapshots, .inl ⟨hw, mapM_eq_some_iff_forall₂.1 hsnapshots⟩, hobjects⟩
    · rename_i w snapshots
      simp only [Option.bind_eq_bind, Option.bind_eq_some_iff] at h
      obtain ⟨tag, ⟨s, hs, htag⟩, he⟩ := h
      obtain ⟨rfl, hobjects⟩ := ofSnapshots?_eq_some_iff.1 he
      obtain rfl := Value.string?_eq_some_iff.1 hs
      obtain rfl := Tag.ofName?_eq_some_iff.1 htag
      exact ⟨snapshots, .inr rfl, hobjects⟩
    · contradiction
  · rintro ⟨snapshots, hcarries, hobjects⟩
    have htag : Tag.ofName? e.tag.name = some e.tag := Tag.ofName?_eq_some_iff.2 rfl
    have hread : ofSnapshots? e.tag snapshots = some e :=
      ofSnapshots?_eq_some_iff.2 ⟨rfl, hobjects⟩
    rcases hcarries with ⟨htype, hnames⟩ | rfl
    · cases v with
      | object members =>
        have hsnapshots : ((objectNames e.tag).mapM fun name => members.lookup name) =
            some snapshots := mapM_eq_some_iff_forall₂.2 hnames
        have htype' : members.lookup "type" = some (.string e.tag.name) := htype
        simp only [ofValue?, htype', Option.bind_some, Value.string?, htag, hsnapshots,
          Option.bind_eq_bind, hread]
      | _ => contradiction
    · simp only [ofValue?, Value.string?, Option.bind_some, htag, Option.bind_eq_bind, hread]

theorem Carries.wellFormed {tag : Tag} (h : Carries v tag snapshots) (hv : v.WellFormed) :
    ∀ w ∈ snapshots, w.WellFormed := by
  intro w hw
  rcases h with ⟨_, hnames⟩ | rfl
  · obtain ⟨name, _, hname⟩ := exists_mem_of_forall₂ hnames hw
    cases v with
    | object members => exact hv.lookup hname
    | _ => contradiction
  · exact Value.wellFormed_array_iff.1 hv w (List.mem_cons_of_mem _ hw)

/-- The objects of an event that is read are well-formed, and their bodies keep the typed fields. -/
theorem objects_of_ofValue? (hv : v.WellFormed) (h : ofValue? v = some e) :
    ∀ o ∈ e.objects, o.WellFormed ∧ o.KeepsTyped := by
  obtain ⟨snapshots, hcarries, hobjects⟩ := ofValue?_eq_some_iff.1 h
  intro o ho
  obtain ⟨w, hw, hread⟩ := exists_mem_of_forall₂ hobjects ho
  exact ⟨Object.wellFormed_of_ofValue? (hcarries.wellFormed hv w hw) hread,
    Object.keepsTyped_of_ofValue? hread⟩

end Event

end Reading

end ReconcileTrigger
