import ReconcileTrigger.Proofs.Object.RoundTrip

/-!
Events are read back as they were written, with the objects in them. Reading keeps every object of
an event as its snapshot has it, so reading and writing again changes nothing more.
-/

namespace ReconcileTrigger

open Json (Value)

namespace Event

/-- An event is written with its tag and the snapshots of its objects. -/
theorem carries_toValue (e : Event) : Carries e.toValue e.tag (e.objects.map Object.toValue) := by
  left
  cases e <;>
    simp [toValue, Value.ofMembers, Value.member?, lookup_sortEntries, List.lookup_cons,
      objectNames, objects, tag]

/-- An event whose objects keep the typed fields is read back from its written form. -/
theorem ofValue?_toValue {e : Event} (h : ∀ o ∈ e.objects, o.KeepsTyped) :
    ofValue? e.toValue = some e := by
  refine ofValue?_eq_some_iff.2 ⟨_, carries_toValue e, ?_⟩
  rw [List.forall₂_map_left_iff, List.forall₂_same]
  intro o ho
  exact Object.ofValue?_toValue (h o ho)

/-- Objects and events are read back as they were written. What is read keeps the typed fields
apart from the body, and the body as it is, so writing what was read is idempotent. -/
theorem reading_undoes_writing :
    (∀ o : Object, o.KeepsTyped → Object.ofSnapshot o.toValue = .ok o) ∧
      (∀ (v : Value) (o : Object), v.WellFormed → Object.ofSnapshot v = .ok o →
        o.KeepsTyped ∧ o.HasBodyOf v ∧
          (Object.ofSnapshot o.toValue).map Object.toValue = .ok o.toValue) ∧
      (∀ e : Event, (∀ o ∈ e.objects, o.KeepsTyped) → ofValue? e.toValue = some e) ∧
      (∀ (v : Value) (e : Event), v.WellFormed → ofValue? v = some e →
        (∃ snapshots, Carries v e.tag snapshots ∧
          List.Forall₂ (fun w o => Object.ofSnapshot w = .ok o ∧ o.KeepsTyped ∧ o.HasBodyOf w)
            snapshots e.objects) ∧
          (ofValue? e.toValue).map toValue = some e.toValue) := by
  refine ⟨fun o => Object.ofSnapshot_toValue, ?_, fun e => ofValue?_toValue, ?_⟩
  · intro v o hv h
    have hread : Object.ofValue? v = some o := Object.ofSnapshot_eq_ok_iff.1 h
    have htyped : o.KeepsTyped := Object.keepsTyped_of_ofValue? hread
    refine ⟨htyped, Object.hasBodyOf_of_ofValue? hv hread, ?_⟩
    rw [Object.ofSnapshot_toValue htyped]
    rfl
  · intro v e hv h
    have htyped : ∀ o ∈ e.objects, o.KeepsTyped := fun o ho => (objects_of_ofValue? hv h o ho).2
    obtain ⟨snapshots, hcarries, hobjects⟩ := ofValue?_eq_some_iff.1 h
    have hwf : ∀ w ∈ snapshots, w.WellFormed := hcarries.wellFormed hv
    refine ⟨⟨snapshots, hcarries, ?_⟩, ?_⟩
    · have hboth := (List.forall₂_and_left snapshots e.objects).2 ⟨hwf, hobjects⟩
      refine hboth.imp ?_
      rintro w o ⟨hw, hread⟩
      exact ⟨Object.ofSnapshot_eq_ok_iff.2 hread, Object.keepsTyped_of_ofValue? hread,
        Object.hasBodyOf_of_ofValue? hw hread⟩
    · rw [ofValue?_toValue htyped]
      rfl

/-- A snapshot with metadata by position, a deletion in a leap second, and nothing in its data. -/
def departingSnapshot (generation : Int64) : Value :=
  .object [("apiVersion", .string "v1"), ("data", .null), ("kind", .string "Secret"),
    ("metadata", .array [.string "rook-ceph-mon", .null, .string "s-1", .object [], .object [],
      .ofInt generation.toInt, .null, .string "2024-02-29 23:59:60.5z"])]

def departing (generation : Int64) : Object where
  apiVersion := "v1"
  kind := "Secret"
  metadata := {
    name := "rook-ceph-mon"
    uid := some "s-1"
    generation := generation
    deletionTimestamp := some ⟨⟨2024, 2, 29, 23, 59, 59, 999999999, 0⟩, by decide⟩ }
  body := Dict.ofList [("data", .null)]

theorem wellFormed_departingSnapshot (generation : Int64) :
    (departingSnapshot generation).WellFormed := by
  have hkeys : ["apiVersion", "data", "kind", "metadata"].Pairwise (· < ·) := by decide
  have hempty : (Value.object []).WellFormed := ⟨sortedKeys_nil, trivial⟩
  have hmetadata : (Value.array [.string "rook-ceph-mon", .null, .string "s-1", .object [],
      .object [], .ofInt generation.toInt, .null, .string "2024-02-29 23:59:60.5z"]).WellFormed :=
    ⟨trivial, trivial, trivial, hempty, hempty, trivial, trivial, trivial, trivial⟩
  exact ⟨hkeys, trivial, trivial, trivial, hmetadata, trivial⟩

def departingDocument : Value :=
  .object [("new", departingSnapshot 4), ("old", departingSnapshot 3), ("seen", .bool true),
    ("type", .string "update")]

/-- The secret and its update are read from other forms than the ones they are written in. -/
theorem reading_undoes_writing_departing :
    (departing 3).KeepsTyped ∧ (departing 3).HasBodyOf (departingSnapshot 3) ∧
      Object.ofSnapshot (departing 3).toValue = .ok (departing 3) ∧
      ofValue? (Event.update (departing 3) (departing 4)).toValue =
        some (Event.update (departing 3) (departing 4)) ∧
      (∃ snapshots, Carries departingDocument .update snapshots) := by
  obtain ⟨hobject, hsnapshot, hevent, hdocument⟩ := reading_undoes_writing
  have hkeys : ["new", "old", "seen", "type"].Pairwise (· < ·) := by decide
  have hwf : departingDocument.WellFormed :=
    ⟨hkeys, wellFormed_departingSnapshot 4, wellFormed_departingSnapshot 3, trivial, trivial,
      trivial⟩
  obtain ⟨htyped, hbody, _⟩ :=
    hsnapshot (departingSnapshot 3) (departing 3) (wellFormed_departingSnapshot 3) rfl
  obtain ⟨htyped', _, _⟩ :=
    hsnapshot (departingSnapshot 4) (departing 4) (wellFormed_departingSnapshot 4) rfl
  have hobjects : ∀ o ∈ (Event.update (departing 3) (departing 4)).objects, o.KeepsTyped := by
    simp [objects, htyped, htyped']
  obtain ⟨⟨snapshots, hcarries, _⟩, _⟩ :=
    hdocument departingDocument (.update (departing 3) (departing 4)) hwf rfl
  exact ⟨htyped, hbody, hobject _ htyped, hevent _ hobjects, snapshots, hcarries⟩

end Event

end ReconcileTrigger
