import ReconcileTrigger.Proofs.Object.RoundTrip

/-!
Comparing documents and comparing the objects that are read from them. Reading drops unknown
metadata and gives the rest of them another written form, but it changes nothing else, except that a
missing API version becomes the empty one. So where the metadata do not count both comparisons have
one outcome.
-/

namespace ReconcileTrigger

open Json (Value)

namespace Object

def withApiVersion : Value → Value
  | .object members =>
    match members.lookup "apiVersion" with
    | some _ => .object members
    | none => .object (insertEntry "apiVersion" (.string "") members)
  | v => v

variable {v : Value} {o : Object}

theorem withApiVersion_eq_self (h : (v.member? "apiVersion").isSome = true) :
    withApiVersion v = v := by
  cases v with
  | object members =>
    obtain ⟨version, hversion⟩ := Option.isSome_iff_exists.1 h
    have hlookup : members.lookup "apiVersion" = some version := hversion
    simp only [withApiVersion, hlookup]
  | _ => contradiction

theorem member?_withApiVersion_of_ne (v : Value) {key : String} (hkey : key ≠ "apiVersion") :
    (withApiVersion v).member? key = v.member? key := by
  cases v with
  | object members =>
    simp only [withApiVersion]
    split
    · rfl
    · exact lookup_insertEntry_of_ne hkey ..
  | _ => rfl

theorem wellFormed_withApiVersion (hv : v.WellFormed) : (withApiVersion v).WellFormed := by
  cases v with
  | object members =>
    have hempty : (Value.string "").WellFormed := trivial
    simp only [withApiVersion]
    split
    · exact hv
    · exact Value.wellFormed_insertEntry hv hempty _
  | _ => exact hv

/-- A snapshot is read as it is with the empty API version filled in. -/
theorem ofValue?_withApiVersion (hv : v.WellFormed) (h : ofValue? v = some o) :
    ofValue? (withApiVersion v) = some o := by
  obtain ⟨members, rfl, hversion, hkind, hmetadata, hbody⟩ := ofValue?_eq_some_iff.1 h
  simp only [withApiVersion]
  split
  · exact h
  · rename_i hnone
    have hother : ∀ key, key ≠ "apiVersion" →
        (insertEntry "apiVersion" (Value.string "") members).lookup key = members.lookup key :=
      fun key hkey => lookup_insertEntry_of_ne hkey ..
    have hsorted := (Value.wellFormed_object_iff.1 hv).1
    refine ofValue?_eq_some_iff.2 ⟨_, rfl, ?_, ?_, ?_, ?_⟩
    · rw [Fields.optional?_of_lookup (lookup_insertEntry_self ..)]
      rwa [Fields.optional?, hnone] at hversion
    · rwa [Fields.required?, hother "kind" (by decide)]
    · rwa [Fields.optional?, hother "metadata" (by decide)]
    · rw [hbody]
      apply Dict.ext_get?
      intro key
      rw [Dict.get?_ofList_eraseEntries hsorted,
        Dict.get?_ofList_eraseEntries (sortedKeys_insertEntry hsorted)]
      split
      · rfl
      · rename_i htyped
        rw [hother key (fun hkey => htyped (hkey ▸ List.mem_cons_self ..))]

theorem member?_apiVersion_withApiVersion (h : ofValue? v = some o) :
    (withApiVersion v).member? "apiVersion" = some (.string o.apiVersion) := by
  obtain ⟨members, rfl, hversion, _⟩ := ofValue?_eq_some_iff.1 h
  simp only [withApiVersion]
  split
  · rename_i version hlookup
    rw [Fields.optional?_of_lookup hlookup, Value.string?_eq_some_iff] at hversion
    rw [Value.member?, hlookup, hversion]
  · rename_i hnone
    rw [Fields.optional?, hnone] at hversion
    rw [Value.member?, lookup_insertEntry_self, Option.some.inj hversion]

theorem member?_kind_of_ofValue? (h : ofValue? v = some o) :
    v.member? "kind" = some (.string o.kind) := by
  obtain ⟨members, rfl, _, hkind, _⟩ := ofValue?_eq_some_iff.1 h
  unfold Fields.required? at hkind
  split at hkind
  · rename_i kind hlookup
    rw [Value.member?, hlookup, Value.string?_eq_some_iff.1 hkind]
  · contradiction

/-- The typed fields of a snapshot that its body keeps. -/
theorem member?_toValue_of_mem (h : o.KeepsTyped) {key : String} (hkey : key ∈ typedKeys) :
    o.toValue.member? key = o.typedMembers.reverse.lookup key := by
  rw [member?_toValue, h key hkey, Option.none_or]

/-- A snapshot that is read and the one that the object is written as differ in the metadata
only. -/
theorem agreeOutside_withApiVersion (hv : v.WellFormed) (h : ofValue? v = some o)
    {names : List String} (hmetadata : "metadata" ∈ names) :
    Comparison.AgreeOutside names (withApiVersion v) o.toValue := by
  have htyped : o.KeepsTyped := keepsTyped_of_ofValue? h
  obtain ⟨members, hobject, _⟩ := ofValue?_eq_some_iff.1 (ofValue?_withApiVersion hv h)
  refine ⟨by rw [hobject]; rfl, ?_⟩
  intro key hkey
  by_cases hversion : key = "apiVersion"
  · rw [hversion, member?_apiVersion_withApiVersion h,
      member?_toValue_of_mem htyped (by decide)]
    rfl
  · rw [member?_withApiVersion_of_ne v hversion]
    by_cases hkind : key = "kind"
    · rw [hkind, member?_kind_of_ofValue? h, member?_toValue_of_mem htyped (by decide)]
      rfl
    · have hne : key ≠ "metadata" := fun heq => hkey (heq ▸ hmetadata)
      have hbody : key ∉ typedKeys := by simp [typedKeys, hversion, hkind, hne]
      have hdocument := hasBodyOf_of_ofValue? hv h key
      have hwritten := hasBodyOf_toValue htyped key
      rw [if_neg hbody] at hdocument hwritten
      rw [← hdocument, hwritten]

end Object

namespace Comparison

variable {c : Comparison} {v w : Value} {old new : Object}

theorem exists_rendered?_iff {d : Diff} (h : c.diff v w = .ok d) :
    (∃ shown, c.rendered? v w = .ok (some shown)) ↔ d.isEmpty = false := by
  have hrendered : c.rendered? v w = .ok (if d.isEmpty then none else some d.toJson) := by
    rw [rendered?, h]
    rfl
  rw [hrendered]
  cases d.isEmpty with
  | true => exact iff_of_false nofun nofun
  | false => exact iff_of_true ⟨_, rfl⟩ rfl

/-- Comparing the documents has the outcome of comparing the objects: the same diff, and so the same
decision, whoever asks for it. -/
structure AgreesWith (c : Comparison) (v w : Value) (old new : Object) : Prop where
  diff : ∃ d, c.diff v w = .ok d ∧ c.objectDiff old new = .ok d
  changed : ∀ name, (c.changed name v w).result = (c.objectChanged old new).result
  rendered : (∃ shown, c.rendered? v w = .ok (some shown)) ↔
    (c.objectChanged old new).result = true

theorem agreesWith_of_diff_eq {d : Diff} (h : c.diff v w = .ok d)
    (hobjects : c.objectDiff old new = .ok d) : c.AgreesWith v w old new := by
  have hchanged : (c.objectChanged old new).result = !d.isEmpty := by
    rw [objectChanged, result_changed, ← objectDiff, hobjects]
  refine ⟨⟨d, h, hobjects⟩, ?_, ?_⟩
  · intro name
    rw [result_changed, h, hchanged]
  · rw [exists_rendered?_iff h, hchanged, Bool.not_eq_true']

/-- Where the metadata do not count, two documents are compared as the objects that are read from
them, once an empty API version stands where there is none. -/
theorem agreesWith_withApiVersion (c : Comparison) (hmetadata : "metadata" ∈ c.volatileFields)
    (hv : v.WellFormed) (hw : w.WellFormed) (hold : Object.ofValue? v = some old)
    (hnew : Object.ofValue? w = some new) :
    c.AgreesWith (Object.withApiVersion v) (Object.withApiVersion w) old new := by
  have hwritten : old.toValue.WellFormed :=
    Object.wellFormed_toValue (Object.wellFormed_of_ofValue? hv hold)
  have hwritten' : new.toValue.WellFormed :=
    Object.wellFormed_toValue (Object.wellFormed_of_ofValue? hw hnew)
  have hobjects : c.objectDiff old new = .ok _ := c.diff_eq_ok rfl rfl
  refine agreesWith_of_diff_eq ?_ hobjects
  rw [← diff_eq_of_agreeOutside c (Object.wellFormed_withApiVersion hv)
    (Object.wellFormed_withApiVersion hw) hwritten hwritten'
    (Object.agreeOutside_withApiVersion hv hold hmetadata)
    (Object.agreeOutside_withApiVersion hw hnew hmetadata)]
  exact hobjects

/-- Where the metadata do not count, documents with an API version are compared as the objects that
are read from them. Other documents are read as they are with the empty API version filled in, and
then the same holds of them. -/
theorem documents_compare_as_objects (c : Comparison) (hmetadata : "metadata" ∈ c.volatileFields)
    (hv : v.WellFormed) (hw : w.WellFormed) (hold : Object.ofSnapshot v = .ok old)
    (hnew : Object.ofSnapshot w = .ok new) :
    ((v.member? "apiVersion").isSome = true → (w.member? "apiVersion").isSome = true →
      c.AgreesWith v w old new) ∧
    Object.ofSnapshot (Object.withApiVersion v) = .ok old ∧
    Object.ofSnapshot (Object.withApiVersion w) = .ok new ∧
    c.AgreesWith (Object.withApiVersion v) (Object.withApiVersion w) old new := by
  rw [Object.ofSnapshot_eq_ok_iff] at hold hnew
  have hagrees := agreesWith_withApiVersion c hmetadata hv hw hold hnew
  refine ⟨?_, ?_, ?_, hagrees⟩
  · intro hversion hversion'
    rwa [Object.withApiVersion_eq_self hversion, Object.withApiVersion_eq_self hversion'] at hagrees
  · exact Object.ofSnapshot_eq_ok_iff.2 (Object.ofValue?_withApiVersion hv hold)
  · exact Object.ofSnapshot_eq_ok_iff.2 (Object.ofValue?_withApiVersion hw hnew)

/-- A snapshot without an API version, and with metadata that are written in another form. -/
def listedSnapshot (data : String) : Value :=
  .object [("data", .string data), ("kind", .string "Secret"),
    ("metadata", .object [("creationTimestamp", .string "2024-02-29 12:00:00.50z"),
      ("name", .string "rook-ceph-mon"), ("selfLink", .null), ("uid", .null)])]

def listed (data : String) : Object where
  apiVersion := ""
  kind := "Secret"
  metadata := {
    name := "rook-ceph-mon"
    creationTimestamp := some ⟨⟨2024, 2, 29, 12, 0, 0, 500000000, 0⟩, by decide⟩ }
  body := Dict.ofList [("data", .string data)]

theorem wellFormed_listedSnapshot (data : String) : (listedSnapshot data).WellFormed := by
  have hkeys : ["data", "kind", "metadata"].Pairwise (· < ·) := by decide
  have hmetadata : ["creationTimestamp", "name", "selfLink", "uid"].Pairwise (· < ·) := by decide
  exact ⟨hkeys, trivial, trivial, ⟨hmetadata, trivial, trivial, trivial, trivial, trivial⟩, trivial⟩

/-- Amounts are not looked at here, so another unit in the data is a change, in the documents and in
the objects. -/
theorem documents_compare_as_objects_listed :
    Object.ofSnapshot (listedSnapshot "1k") = .ok (listed "1k") ∧
      Object.ofSnapshot (listedSnapshot "1000") = .ok (listed "1000") ∧
      (⟨["metadata"]⟩ : Comparison).AgreesWith (Object.withApiVersion (listedSnapshot "1k"))
        (Object.withApiVersion (listedSnapshot "1000")) (listed "1k") (listed "1000") ∧
      ((⟨["metadata"]⟩ : Comparison).objectChanged (listed "1k") (listed "1000")).result = true := by
  have hread : ∀ data, Object.ofSnapshot (listedSnapshot data) = .ok (listed data) := fun _ => rfl
  obtain ⟨_, _, _, hagrees⟩ := documents_compare_as_objects ⟨["metadata"]⟩
    (List.mem_singleton_self _) (wellFormed_listedSnapshot "1k") (wellFormed_listedSnapshot "1000")
    (hread "1k") (hread "1000")
  exact ⟨hread "1k", hread "1000", hagrees, by decide +kernel⟩

end Comparison

end ReconcileTrigger
