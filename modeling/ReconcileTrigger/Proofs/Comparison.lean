import Mathlib.Data.List.Nodup
import ReconcileTrigger.Comparison
import ReconcileTrigger.Proofs.Diff.Structural

/-!
What a comparison of two snapshots looks at. Differences are found first and those in volatile
fields are dropped afterwards, but the outcome is that of two snapshots which never had these
fields. The resource version of the new snapshot does not count either, wherever the old snapshot
has one to put in its place.
-/

namespace ReconcileTrigger.Comparison

open Json (Value Position)
open Json.Value (samePart exists_object_of_member? exists_object_of_isObject)

def versionPosition : Position :=
  [.member "metadata", .member "resourceVersion"]

theorem at?_versionPosition (v : Value) :
    v.at? versionPosition = (v.member? "metadata").bind (·.member? "resourceVersion") := by
  have hchild : ∀ (key : String) (v : Value), (Json.Step.member key).child? v = v.member? key := by
    intro key v
    cases v <;> rfl
  simp only [versionPosition, Value.at?, hchild, Option.bind_fun_some]

theorem resourceVersion?_eq_some_iff {v : Value} {version : String} :
    resourceVersion? v = some version ↔ v.at? versionPosition = some (.string version) := by
  rw [resourceVersion?, ← at?_versionPosition, Option.bind_eq_some_iff]
  constructor
  · rintro ⟨part, hpart, hstring⟩
    cases part with
    | string s =>
      obtain rfl : s = version := Option.some.inj hstring
      exact hpart
    | _ => contradiction
  · intro h
    exact ⟨_, h, rfl⟩

/-- Both snapshots have a metadata object, and they differ in nothing but its resource version. -/
structure SameButVersion (a b : Value) : Prop where
  members : ∀ key, key ≠ "metadata" → a.member? key = b.member? key
  metadata : ∃ m m', a.member? "metadata" = some (.object m) ∧
    b.member? "metadata" = some (.object m') ∧
    ∀ key, key ≠ "resourceVersion" → m.lookup key = m'.lookup key

namespace SameButVersion

variable {a b c : Value}

theorem symm (h : SameButVersion a b) : SameButVersion b a where
  members := fun key hkey => (h.members key hkey).symm
  metadata := by
    obtain ⟨m, m', ha, hb, hm⟩ := h.metadata
    exact ⟨m', m, hb, ha, fun key hkey => (hm key hkey).symm⟩

theorem trans (hab : SameButVersion a b) (hbc : SameButVersion b c) : SameButVersion a c where
  members := fun key hkey => (hab.members key hkey).trans (hbc.members key hkey)
  metadata := by
    obtain ⟨m, m', ha, hb, hm⟩ := hab.metadata
    obtain ⟨n, n', hb', hc, hn⟩ := hbc.metadata
    obtain rfl : m' = n := by
      rw [hb] at hb'
      exact Value.object.inj (Option.some.inj hb')
    exact ⟨m, n', ha, hc, fun key hkey => (hm key hkey).trans (hn key hkey)⟩

/-- With the same resource version there is no difference left. -/
theorem eq (h : SameButVersion a b) (ha : a.WellFormed) (hb : b.WellFormed)
    (hversion : a.at? versionPosition = b.at? versionPosition) : a = b := by
  obtain ⟨m, m', hm, hm', hmetadata⟩ := h.metadata
  obtain ⟨members, rfl, hlookup⟩ := exists_object_of_member? hm
  obtain ⟨members', rfl, hlookup'⟩ := exists_object_of_member? hm'
  have hmeta : m = m' := by
    apply eq_of_lookup_eq (Value.wellFormed_object_iff.1 (ha.lookup hlookup)).1
      (Value.wellFormed_object_iff.1 (hb.lookup hlookup')).1
    intro key
    by_cases hkey : key = "resourceVersion"
    · rw [at?_versionPosition, at?_versionPosition, hm, hm'] at hversion
      rw [hkey]
      exact hversion
    · exact hmetadata key hkey
  congr 1
  apply eq_of_lookup_eq (Value.wellFormed_object_iff.1 ha).1 (Value.wellFormed_object_iff.1 hb).1
  intro key
  by_cases hkey : key = "metadata"
  · rw [hkey, hlookup, hlookup', hmeta]
  · exact h.members key hkey

end SameButVersion

/-- The old snapshot has the resource version, as a text, and the new one has a metadata object to
hold it. -/
def Alignable (old new : Value) (version : String) : Prop :=
  old.at? versionPosition = some (.string version) ∧
    ∃ metadata, new.member? "metadata" = some (.object metadata)

/-- `aligned` is the new snapshot with the resource version of the old one, where it can hold it,
and else just the new snapshot. -/
structure IsAligned (old new aligned : Value) : Prop where
  wellFormed : aligned.WellFormed
  copied : ∀ version, Alignable old new version →
    aligned.at? versionPosition = some (.string version) ∧ SameButVersion aligned new
  kept : (∀ version, ¬ Alignable old new version) → aligned = new

section Alignment

variable {old new : Value} {version : String}

/-- The alignment of two snapshots that can be aligned. -/
theorem Alignable.exists_align_eq (h : Alignable old new version) :
    ∃ members metadata, new = .object members ∧
      members.lookup "metadata" = some (.object metadata) ∧
      align old new = .object (insertEntry "metadata"
        (.object (insertEntry "resourceVersion" (.string version) metadata)) members) := by
  obtain ⟨hold, metadata, hnew⟩ := h
  obtain ⟨members, rfl, hlookup⟩ := exists_object_of_member? hnew
  refine ⟨members, metadata, rfl, hlookup, ?_⟩
  simp only [align, resourceVersion?_eq_some_iff.2 hold, withResourceVersion, hlookup]

theorem align_eq_self (h : ∀ version, ¬ Alignable old new version) : align old new = new := by
  unfold align
  split
  · rename_i version members hold
    unfold withResourceVersion
    split
    · rename_i metadata hnew
      exact absurd ⟨resourceVersion?_eq_some_iff.1 hold, metadata, hnew⟩ (h version)
    · rfl
  · rfl

theorem Alignable.at?_align (h : Alignable old new version) :
    (align old new).at? versionPosition = some (.string version) := by
  obtain ⟨members, metadata, rfl, _, halign⟩ := h.exists_align_eq
  rw [halign, at?_versionPosition, Value.member?, lookup_insertEntry_self, Option.bind_some,
    Value.member?, lookup_insertEntry_self]

theorem Alignable.sameButVersion_align (h : Alignable old new version) :
    SameButVersion (align old new) new := by
  obtain ⟨members, metadata, rfl, hmetadata, halign⟩ := h.exists_align_eq
  rw [halign]
  refine ⟨fun key hkey => lookup_insertEntry_of_ne hkey .., _, metadata,
    lookup_insertEntry_self .., hmetadata, ?_⟩
  intro key hkey
  exact lookup_insertEntry_of_ne hkey ..

theorem wellFormed_align (old : Value) (hnew : new.WellFormed) : (align old new).WellFormed := by
  by_cases h : ∃ version, Alignable old new version
  · obtain ⟨version, h⟩ := h
    obtain ⟨members, metadata, rfl, hmetadata, halign⟩ := h.exists_align_eq
    have hversion : (Value.string version).WellFormed := trivial
    rw [halign]
    exact Value.wellFormed_insertEntry hnew
      (Value.wellFormed_insertEntry (hnew.lookup hmetadata) hversion _) _
  · rw [align_eq_self (not_exists.1 h)]
    exact hnew

theorem isAligned_align (old : Value) (hnew : new.WellFormed) :
    IsAligned old new (align old new) where
  wellFormed := wellFormed_align old hnew
  copied := fun _ h => ⟨h.at?_align, h.sameButVersion_align⟩
  kept := align_eq_self

theorem isObject_align (old new : Value) : (align old new).isObject = new.isObject := by
  unfold align
  split <;> rfl

/-- What is in the new snapshot besides its metadata stays as it is. -/
theorem member?_align_of_ne (old new : Value) {key : String} (hkey : key ≠ "metadata") :
    (align old new).member? key = new.member? key := by
  by_cases h : ∃ version, Alignable old new version
  · obtain ⟨version, h⟩ := h
    exact h.sameButVersion_align.members key hkey
  · rw [align_eq_self (not_exists.1 h)]

/-- A resource version that is replaced does not count. -/
theorem align_eq_of_sameButVersion {new' : Value} (hnew : new.WellFormed) (hnew' : new'.WellFormed)
    (hold : old.at? versionPosition = some (.string version)) (h : SameButVersion new new') :
    align old new' = align old new := by
  obtain ⟨m, m', hm, hm', _⟩ := h.metadata
  have halign : Alignable old new version := ⟨hold, m, hm⟩
  have halign' : Alignable old new' version := ⟨hold, m', hm'⟩
  have hsame : SameButVersion (align old new') (align old new) :=
    (halign'.sameButVersion_align.trans h.symm).trans halign.sameButVersion_align.symm
  apply hsame.eq (wellFormed_align old hnew') (wellFormed_align old hnew)
  rw [halign.at?_align, halign'.at?_align]

/-- The metadata after the alignment depend on the metadata of the two snapshots only. -/
theorem member?_metadata_align_congr {old' new' : Value}
    (hold : old.member? "metadata" = old'.member? "metadata")
    (hnew : new.member? "metadata" = new'.member? "metadata") :
    (align old new).member? "metadata" = (align old' new').member? "metadata" := by
  have hiff : ∀ version, Alignable old new version ↔ Alignable old' new' version := by
    intro version
    unfold Alignable
    rw [at?_versionPosition, at?_versionPosition, hold, hnew]
  by_cases h : ∃ version, Alignable old new version
  · obtain ⟨version, h⟩ := h
    obtain ⟨members, metadata, rfl, hmetadata, halign⟩ := h.exists_align_eq
    obtain ⟨members', metadata', rfl, hmetadata', halign'⟩ := ((hiff version).1 h).exists_align_eq
    obtain rfl : metadata = metadata' :=
      Value.object.inj (Option.some.inj (hmetadata.symm.trans (hnew.trans hmetadata')))
    rw [halign, halign']
    exact (lookup_insertEntry_self ..).trans (lookup_insertEntry_self ..).symm
  · have h' : ∀ version, ¬ Alignable old' new' version :=
      fun version hversion => h ⟨version, (hiff version).2 hversion⟩
    rw [align_eq_self (not_exists.1 h), align_eq_self h', hnew]

end Alignment

def stripped (names : List String) : Value → Value
  | .object members => .object (eraseEntries names members)
  | v => v

theorem wellFormed_stripped (names : List String) {v : Value} (h : v.WellFormed) :
    (stripped names v).WellFormed := by
  cases v with
  | object members =>
    obtain ⟨hsorted, hmembers⟩ := Value.wellFormed_object_iff.1 h
    refine Value.wellFormed_object_iff.2 ⟨sortedKeys_eraseEntries hsorted, ?_⟩
    intro e he
    exact hmembers e (List.mem_filter.1 he).1
  | _ => exact h

/-- Both snapshots are objects or neither is, and outside of the named fields they are the same. -/
structure AgreeOutside (names : List String) (a b : Value) : Prop where
  isObject : a.isObject = b.isObject
  members : ∀ key, key ∉ names → a.member? key = b.member? key

theorem AgreeOutside.refl (names : List String) (v : Value) : AgreeOutside names v v :=
  ⟨rfl, fun _ _ => rfl⟩

theorem agreeOutside_stripped (names : List String) (v : Value) :
    AgreeOutside names v (stripped names v) := by
  cases v with
  | object members =>
    refine ⟨rfl, ?_⟩
    intro key hkey
    have hlookup := lookup_eraseEntries names members key
    rw [if_neg hkey] at hlookup
    exact hlookup.symm
  | _ => exact .refl names _

section Diff

variable {c : Comparison} {old new old' new' : Value}

theorem AgreeOutside.stripped_eq {names : List String} {a b : Value} (h : AgreeOutside names a b)
    (ha : a.WellFormed) (hb : b.WellFormed) (hobject : a.isObject = true) :
    stripped names a = stripped names b := by
  obtain ⟨members, rfl⟩ := exists_object_of_isObject hobject
  obtain ⟨members', rfl⟩ := exists_object_of_isObject (h.isObject ▸ hobject)
  exact congrArg Value.object (eraseEntries_eq_of_agree (Value.wellFormed_object_iff.1 ha).1
    (Value.wellFormed_object_iff.1 hb).1 h.members)

theorem AgreeOutside.align {names : List String} (hold : AgreeOutside names old old')
    (hnew : AgreeOutside names new new') :
    AgreeOutside names (align old new) (align old' new') where
  isObject := by rw [isObject_align, isObject_align, hnew.isObject]
  members := by
    intro key hkey
    by_cases hmetadata : key = "metadata"
    · subst hmetadata
      exact member?_metadata_align_congr (hold.members _ hkey) (hnew.members _ hkey)
    · rw [member?_align_of_ne old new hmetadata, member?_align_of_ne old' new' hmetadata]
      exact hnew.members key hkey

theorem diff_eq_error_iff {e : Failure} :
    c.diff old new = .error e ↔
      e = .malformedSnapshot "object snapshots must be JSON objects" ∧
        ¬ (old.isObject = true ∧ new.isObject = true) := by
  rw [diff, ← Bool.and_eq_true]
  split
  · rename_i h
    simp [h]
  · rename_i h
    simp [h, eq_comm]

/-- Two objects are compared by their structural diff, what is volatile being left out of it. -/
theorem diff_eq_ok (c : Comparison) (hobject : old.isObject = true)
    (hobject' : new.isObject = true) :
    c.diff old new = .ok ((Diff.structural old (align old new)).without c.volatileFields) := by
  rw [diff, hobject, hobject', Bool.and_self, if_pos rfl]

/-- The diff of two objects is that of the stripped snapshots, the new one being aligned. -/
theorem diff_eq_structural_stripped (c : Comparison) (hold : old.WellFormed)
    (hnew : new.WellFormed) (hobject : old.isObject = true) (hobject' : new.isObject = true) :
    c.diff old new =
      .ok (.structural (stripped c.volatileFields old)
        (stripped c.volatileFields (align old new))) := by
  have hwf := wellFormed_align old hnew
  have haligned : (align old new).isObject = true := by rw [isObject_align, hobject']
  rw [c.diff_eq_ok hobject hobject']
  obtain ⟨members, rfl⟩ := exists_object_of_isObject hobject
  obtain ⟨members', heq⟩ := exists_object_of_isObject haligned
  rw [heq] at hwf ⊢
  rw [Diff.structural_without (Value.wellFormed_object_iff.1 hold).1
    (Value.wellFormed_object_iff.1 hwf).1]
  rfl

/-- Nothing differs between two objects iff every field that is not volatile is the same. -/
theorem isEmpty_diff_iff (c : Comparison) (hold : old.WellFormed) (hnew : new.WellFormed)
    (hobject : old.isObject = true) (hobject' : new.isObject = true) :
    ∃ d, c.diff old new = .ok d ∧ (d.isEmpty = true ↔ ∀ field ∉ c.volatileFields,
      samePart (old.member? field) ((align old new).member? field) = true) := by
  have hwf := wellFormed_align old hnew
  have haligned : (align old new).isObject = true := by rw [isObject_align, hobject']
  refine ⟨_, c.diff_eq_ok hobject hobject', ?_⟩
  obtain ⟨members, rfl⟩ := exists_object_of_isObject hobject
  obtain ⟨members', heq⟩ := exists_object_of_isObject haligned
  rw [heq] at hwf ⊢
  exact Diff.isEmpty_structural_without_iff hold hwf c.volatileFields

theorem result_changed (c : Comparison) (object : String) (old new : Value) :
    (c.changed object old new).result =
      match c.diff old new with
      | .ok diff => !diff.isEmpty
      | .error _ => true := by
  have hdiff : (c.loggedDiff old new).result = c.diff old new := by
    unfold loggedDiff
    split <;> rfl
  rw [changed, Logged.result_bind, hdiff]
  cases c.diff old new with
  | error e => rfl
  | ok diff => cases hempty : diff.isEmpty <;> simp [hempty]

/-- Volatile fields do not count. -/
theorem diff_eq_of_agreeOutside (c : Comparison) (hold : old.WellFormed) (hnew : new.WellFormed)
    (hold' : old'.WellFormed) (hnew' : new'.WellFormed)
    (h : AgreeOutside c.volatileFields old old') (h' : AgreeOutside c.volatileFields new new') :
    c.diff old' new' = c.diff old new := by
  by_cases hobjects : old.isObject = true ∧ new.isObject = true
  · obtain ⟨hobject, hobject'⟩ := hobjects
    have haligned : (align old new).isObject = true := by rw [isObject_align, hobject']
    rw [diff_eq_structural_stripped c hold hnew hobject hobject',
      diff_eq_structural_stripped c hold' hnew' (h.isObject ▸ hobject) (h'.isObject ▸ hobject'),
      h.stripped_eq hold hold' hobject,
      (h.align h').stripped_eq (wellFormed_align old hnew) (wellFormed_align old' hnew') haligned]
  · have hobjects' : ¬ (old'.isObject = true ∧ new'.isObject = true) := by
      rwa [← h.isObject, ← h'.isObject]
    rw [diff_eq_error_iff.2 ⟨rfl, hobjects⟩, diff_eq_error_iff.2 ⟨rfl, hobjects'⟩]

/-- A resource version that is replaced does not count, whether the metadata do or not. -/
theorem diff_eq_of_sameButVersion (c : Comparison) {version : String} (hnew : new.WellFormed)
    (hnew' : new'.WellFormed) (hold : old.at? versionPosition = some (.string version))
    (h : SameButVersion new new') : c.diff old new' = c.diff old new := by
  obtain ⟨m, m', hm, hm', _⟩ := h.metadata
  obtain ⟨members, rfl, _⟩ := exists_object_of_member? hm
  obtain ⟨members', rfl, _⟩ := exists_object_of_member? hm'
  unfold diff
  rw [align_eq_of_sameButVersion hnew hnew' hold h]
  rfl

end Diff

/-- A comparison fails iff a snapshot is no object. Otherwise its diff is that of the two snapshots
without their volatile fields, the new one having the resource version of the old one. So the values
of volatile fields do not count, and a resource version that is replaced does not either. -/
theorem diff_looks_at_stable_fields (c : Comparison) (old new : Value) (hold : old.WellFormed)
    (hnew : new.WellFormed) :
    (∀ e, c.diff old new = .error e ↔
      e = .malformedSnapshot "object snapshots must be JSON objects" ∧
        ¬ (old.isObject = true ∧ new.isObject = true)) ∧
    (old.isObject = true → new.isObject = true → ∃ aligned, IsAligned old new aligned ∧
      c.diff old new = .ok (.structural (stripped c.volatileFields old)
        (stripped c.volatileFields aligned))) ∧
    (∀ old' new' : Value, old'.WellFormed → new'.WellFormed →
      AgreeOutside c.volatileFields old old' → AgreeOutside c.volatileFields new new' →
        c.diff old' new' = c.diff old new) ∧
    (∀ (version : String) (new' : Value), old.at? versionPosition = some (.string version) →
      new'.WellFormed → SameButVersion new new' → c.diff old new' = c.diff old new) := by
  refine ⟨fun e => diff_eq_error_iff, ?_, ?_, ?_⟩
  · intro hobject hobject'
    exact ⟨align old new, isAligned_align old hnew,
      diff_eq_structural_stripped c hold hnew hobject hobject'⟩
  · intro old' new' hold' hnew' h h'
    exact diff_eq_of_agreeOutside c hold hnew hold' hnew' h h'
  · intro version new' hversion hnew' h
    exact diff_eq_of_sameButVersion c hnew hnew' hversion h

/-- A snapshot with some resource version, and with a field whose name is escaped in pointers. -/
def polled (version : Value) : Value :=
  .object [("a/b", .bool true),
    ("metadata", .object [("name", .string "x"), ("resourceVersion", version)]),
    ("spec", .object [("size", .number (.integer 3))])]

theorem wellFormed_polled {version : Value} (h : version.WellFormed) :
    (polled version).WellFormed := by
  have hkeys : List.Pairwise (· < ·) ["a/b", "metadata", "spec"] := by decide +kernel
  have hmetadata : List.Pairwise (· < ·) ["name", "resourceVersion"] := by decide +kernel
  have hspec : List.Pairwise (· < ·) ["size"] := List.pairwise_singleton ..
  exact ⟨hkeys, trivial, ⟨hmetadata, trivial, h, trivial⟩, ⟨hspec, trivial, trivial⟩, trivial⟩

theorem sameButVersion_polled (version version' : Value) :
    SameButVersion (polled version) (polled version') := by
  refine ⟨?_, _, _, rfl, rfl, ?_⟩
  · intro key hkey
    simp [polled, Value.member?, List.lookup_cons, beq_false_of_ne hkey]
  · intro key hkey
    simp [List.lookup_cons, beq_false_of_ne hkey]

/-- The resource version has become null and a volatile field, named twice, has gone. -/
theorem diff_of_churn_isEmpty :
    ((⟨["a/b", "status", "a/b"]⟩ : Comparison).diff (polled (.string "7"))
      (stripped ["a/b", "status", "a/b"] (polled .null))).toOption.map Diff.isEmpty =
        some true := by
  have hold : (polled (.string "7")).WellFormed := wellFormed_polled trivial
  have hnew : (polled .null).WellFormed := wellFormed_polled trivial
  have hstripped := wellFormed_stripped ["a/b", "status", "a/b"] hnew
  obtain ⟨_, _, hvolatile, _⟩ :=
    diff_looks_at_stable_fields ⟨["a/b", "status", "a/b"]⟩ _ _ hold hnew
  obtain ⟨_, _, _, hversion⟩ :=
    diff_looks_at_stable_fields ⟨["a/b", "status", "a/b"]⟩ _ _ hold hold
  rw [hvolatile _ _ hold hstripped (.refl _ _) (agreeOutside_stripped _ _),
    hversion "7" _ rfl hnew (sameButVersion_polled _ _)]
  decide +kernel

end ReconcileTrigger.Comparison
