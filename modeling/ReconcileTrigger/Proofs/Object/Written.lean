import Mathlib.Data.List.Nodup
import ReconcileTrigger.Proofs.Comparison
import ReconcileTrigger.Proofs.Object.Reading

/-!
The snapshots that objects are written as. Where the body keeps the typed fields, a snapshot has
them as they are, and a new snapshot is aligned with an old one by writing the new object with the
resource version of the old one.
-/

namespace ReconcileTrigger

open Json (Value)
open Json.Value (samePart)

section Members

variable {α : Type} {write : α → Value}

@[simp] theorem reverse_optionalMember (key : String) (value : Option α) :
    (optionalMember key write value).reverse = optionalMember key write value := by
  cases value <;> rfl

@[simp] theorem reverse_nonEmptyMember (key : String) (isEmpty : Bool) (value : Value) :
    (nonEmptyMember key isEmpty value).reverse = nonEmptyMember key isEmpty value := by
  cases isEmpty <;> rfl

theorem lookup_optionalMember_self (key : String) (value : Option α) :
    (optionalMember key write value).lookup key = value.map write := by
  cases value with
  | none => rfl
  | some a => exact List.lookup_cons_self

theorem lookup_optionalMember_of_ne {key other : String} (h : other ≠ key) (value : Option α) :
    (optionalMember key write value).lookup other = none := by
  have hother : (other == key) = false := by simpa using h
  cases value with
  | none => rfl
  | some a => simp only [optionalMember, List.lookup_cons, hother, List.lookup_nil]

theorem lookup_nonEmptyMember_self (key : String) (isEmpty : Bool) (value : Value) :
    (nonEmptyMember key isEmpty value).lookup key = if isEmpty then none else some value := by
  cases isEmpty with
  | true => rfl
  | false => exact List.lookup_cons_self

theorem lookup_nonEmptyMember_of_ne {key other : String} (h : other ≠ key) (isEmpty : Bool)
    (value : Value) : (nonEmptyMember key isEmpty value).lookup other = none := by
  have hother : (other == key) = false := by simpa using h
  cases isEmpty with
  | true => rfl
  | false => simp [nonEmptyMember, List.lookup_cons, hother]

theorem wellFormedMembers_optionalMember (key : String) (hwrite : ∀ a, (write a).WellFormed)
    (value : Option α) : Value.WellFormedMembers (optionalMember key write value) := by
  cases value with
  | none => exact trivial
  | some a => exact ⟨hwrite a, trivial⟩

theorem wellFormedMembers_nonEmptyMember (key : String) (isEmpty : Bool) {value : Value}
    (hvalue : value.WellFormed) : Value.WellFormedMembers (nonEmptyMember key isEmpty value) := by
  cases isEmpty with
  | true => exact trivial
  | false => exact ⟨hvalue, trivial⟩

theorem wellFormedMembers_append {a b : List (String × Value)} :
    Value.WellFormedMembers (a ++ b) ↔
      Value.WellFormedMembers a ∧ Value.WellFormedMembers b := by
  simp only [Value.wellFormedMembers_iff, List.forall_mem_append]

end Members

section WellFormed

theorem wellFormed_stringsToValue (d : Dict String) : (stringsToValue d).WellFormed := by
  refine Value.wellFormed_object_iff.2 ⟨sortedKeys_map d.sorted fun _ => rfl, ?_⟩
  intro e he
  obtain ⟨_, _, rfl⟩ := List.mem_map.1 he
  exact trivial

theorem wellFormed_string (s : String) : (Value.string s).WellFormed :=
  trivial

theorem OwnerReference.wellFormed_toValue (r : OwnerReference) : r.toValue.WellFormed := by
  have hcontroller : ∀ b, (Value.bool b).WellFormed := fun _ => trivial
  apply Value.wellFormed_ofMembers
  rw [← Value.wellFormedMembers_iff, wellFormedMembers_append]
  exact ⟨⟨trivial, trivial, trivial, trivial, trivial⟩,
    wellFormedMembers_optionalMember _ hcontroller _⟩

theorem Metadata.wellFormed_toValue {m : Metadata} (h : ∀ v ∈ m.managedFields, v.WellFormed) :
    m.toValue.WellFormed := by
  have howners : (Value.array (m.ownerReferences.map OwnerReference.toValue)).WellFormed := by
    apply Value.wellFormed_array_iff.2
    intro v hv
    obtain ⟨r, _, rfl⟩ := List.mem_map.1 hv
    exact r.wellFormed_toValue
  have hmanaged : (Value.array m.managedFields).WellFormed := Value.wellFormed_array_iff.2 h
  have htime : ∀ t : Timestamp, t.toValue.WellFormed := fun _ => trivial
  apply Value.wellFormed_ofMembers
  rw [← Value.wellFormedMembers_iff]
  simp only [wellFormedMembers_append, and_assoc]
  exact ⟨⟨trivial, trivial, trivial⟩,
    wellFormedMembers_optionalMember _ wellFormed_string _,
    wellFormedMembers_optionalMember _ wellFormed_string _,
    wellFormedMembers_nonEmptyMember _ _ (wellFormed_stringsToValue _),
    wellFormedMembers_nonEmptyMember _ _ (wellFormed_stringsToValue _),
    wellFormedMembers_optionalMember _ wellFormed_string _,
    wellFormedMembers_optionalMember _ htime _,
    wellFormedMembers_optionalMember _ htime _,
    wellFormedMembers_nonEmptyMember _ _ howners,
    wellFormedMembers_nonEmptyMember _ _ hmanaged⟩

end WellFormed

structure OwnerReference.WrittenAs (r : OwnerReference) (fields : Fields Value) : Prop where
  apiVersion : fields.lookup "apiVersion" = some (.string r.apiVersion)
  kind : fields.lookup "kind" = some (.string r.kind)
  name : fields.lookup "name" = some (.string r.name)
  uid : fields.lookup "uid" = some (.string r.uid)
  controller : fields.lookup "controller" = r.controller.map .bool

theorem OwnerReference.exists_writtenAs (r : OwnerReference) :
    ∃ fields : Fields Value, r.toValue = .object fields ∧ r.WrittenAs fields := by
  refine ⟨_, rfl, ?_⟩
  constructor <;>
    simp [lookup_sortEntries, List.lookup_append, lookup_optionalMember_of_ne,
      lookup_optionalMember_self, List.lookup_cons]

namespace Metadata

structure WrittenAs (m : Metadata) (fields : Fields Value) : Prop where
  name : fields.lookup "name" = some (.string m.name)
  «namespace» : fields.lookup "namespace" = m.namespace.map .string
  uid : fields.lookup "uid" = m.uid.map .string
  labels : fields.lookup "labels" =
    if m.labels.isEmpty then none else some (stringsToValue m.labels)
  annotations : fields.lookup "annotations" =
    if m.annotations.isEmpty then none else some (stringsToValue m.annotations)
  generation : fields.lookup "generation" = some (.ofInt m.generation.toInt)
  resourceVersion : fields.lookup "resourceVersion" = m.resourceVersion.map .string
  deletionTimestamp : fields.lookup "deletionTimestamp" =
    m.deletionTimestamp.map Timestamp.toValue
  creationTimestamp : fields.lookup "creationTimestamp" =
    m.creationTimestamp.map Timestamp.toValue
  ownerReferences : fields.lookup "ownerReferences" =
    if m.ownerReferences.isEmpty then none
    else some (.array (m.ownerReferences.map OwnerReference.toValue))
  managedFields : fields.lookup "managedFields" =
    if m.managedFields.isEmpty then none else some (.array m.managedFields)

theorem exists_writtenAs (m : Metadata) :
    ∃ fields : Fields Value, m.toValue = .object fields ∧ m.WrittenAs fields := by
  refine ⟨_, rfl, ?_⟩
  constructor <;>
    simp [lookup_sortEntries, List.reverse_append, List.lookup_append, lookup_optionalMember_of_ne,
      lookup_nonEmptyMember_of_ne, lookup_optionalMember_self, lookup_nonEmptyMember_self,
      List.lookup_cons]

theorem member?_resourceVersion_toValue (m : Metadata) :
    m.toValue.member? "resourceVersion" = m.resourceVersion.map .string := by
  obtain ⟨fields, hfields, hwritten⟩ := m.exists_writtenAs
  rw [hfields]
  exact hwritten.resourceVersion

/-- The resource version is written under its own key only. -/
theorem member?_toValue_of_ne (m : Metadata) (version : Option String) {key : String}
    (h : key ≠ "resourceVersion") :
    { m with resourceVersion := version }.toValue.member? key = m.toValue.member? key := by
  simp only [toValue, Value.ofMembers, Value.member?, lookup_sortEntries, List.reverse_append,
    reverse_optionalMember, List.lookup_append, lookup_optionalMember_of_ne h]

end Metadata

namespace Object

def typedMembers (o : Object) : List (String × Value) :=
  [("apiVersion", .string o.apiVersion), ("kind", .string o.kind),
    ("metadata", o.metadata.toValue)]

/-- A snapshot has the documents of the body, and the typed fields under keys that are not there. -/
theorem member?_toValue (o : Object) (key : String) :
    o.toValue.member? key = (o.field? key).or (o.typedMembers.reverse.lookup key) := by
  have hmember : o.toValue.member? key = o.members.get? key := rfl
  rw [hmember, members, Dict.get?_foldl_insert]
  exact congrArg _ (lookup_sortEntries _ key)

theorem member?_metadata_toValue {o : Object} (h : o.KeepsTyped) :
    o.toValue.member? "metadata" = some o.metadata.toValue := by
  rw [member?_toValue, h "metadata" (by decide), Option.none_or]
  rfl

theorem wellFormed_toValue {o : Object} (h : o.WellFormed) : o.toValue.WellFormed := by
  refine Value.wellFormed_object_iff.2 ⟨o.members.sorted, ?_⟩
  rintro ⟨key, v⟩ he
  have hlookup : o.toValue.member? key = some v :=
    (lookup_eq_some_iff_mem o.members.sorted).2 he
  rw [member?_toValue, Option.or_eq_some_iff] at hlookup
  rcases hlookup with hbody | ⟨_, htyped⟩
  · exact h.body key v hbody
  · have hmem := List.mem_reverse.1 (mem_of_lookup_eq_some htyped)
    have hall : Value.WellFormedMembers o.typedMembers :=
      ⟨trivial, trivial, Metadata.wellFormed_toValue h.managedFields, trivial⟩
    exact Value.wellFormedMembers_iff.1 hall _ hmem

/-- The object with the resource version of an older state, where that one has one. -/
def withVersionOf (old new : Object) : Object :=
  { new with
    metadata := { new.metadata with
      resourceVersion := old.metadata.resourceVersion.or new.metadata.resourceVersion } }

variable {old new : Object}

theorem at?_versionPosition_toValue {o : Object} (h : o.KeepsTyped) :
    o.toValue.at? Comparison.versionPosition = o.metadata.resourceVersion.map .string := by
  rw [Comparison.at?_versionPosition, member?_metadata_toValue h, Option.bind_some,
    Metadata.member?_resourceVersion_toValue]

theorem sameButVersion_withVersionOf (old : Object) (h : new.KeepsTyped) :
    Comparison.SameButVersion new.toValue (withVersionOf old new).toValue where
  members := by
    intro key hkey
    have hother : (key == "metadata") = false := by simpa using hkey
    rw [member?_toValue, member?_toValue]
    simp only [typedMembers, List.reverse_cons, List.reverse_nil, List.nil_append,
      List.cons_append, List.lookup_cons, hother]
    rfl
  metadata := by
    refine ⟨_, _, member?_metadata_toValue h, member?_metadata_toValue h, ?_⟩
    intro key hkey
    exact (new.metadata.member?_toValue_of_ne _ hkey).symm

/-- Snapshots are aligned by writing the new object with the resource version of the old one. -/
theorem align_toValue (hold : old.KeepsTyped) (hnew : new.KeepsTyped) (hwf : new.WellFormed) :
    Comparison.align old.toValue new.toValue = (withVersionOf old new).toValue := by
  cases hversion : old.metadata.resourceVersion with
  | none =>
    -- nothing to copy, so neither side of the equation touches the new object
    have hsame : withVersionOf old new = new := by
      rw [withVersionOf, hversion, Option.none_or]
    rw [hsame]
    apply Comparison.align_eq_self
    rintro version ⟨hat, _⟩
    rw [at?_versionPosition_toValue hold, hversion] at hat
    contradiction
  | some version =>
    have halign : Comparison.Alignable old.toValue new.toValue version := by
      refine ⟨?_, _, member?_metadata_toValue hnew⟩
      rw [at?_versionPosition_toValue hold, hversion]
      rfl
    -- both sides differ from the new snapshot in the resource version only, and agree on it
    have hsame := halign.sameButVersion_align.trans (sameButVersion_withVersionOf old hnew)
    have hwf' : (withVersionOf old new).WellFormed := ⟨hwf.body, hwf.managedFields⟩
    apply hsame.eq (Comparison.wellFormed_align _ (wellFormed_toValue hwf))
      (wellFormed_toValue hwf')
    have hnew' : (withVersionOf old new).KeepsTyped := hnew
    rw [halign.at?_align, at?_versionPosition_toValue hnew', withVersionOf, hversion]
    rfl

end Object

/-- An object has changed iff it is written with a difference that is neither in a volatile field
nor in the resource version. -/
theorem Comparison.objectChanged_iff (c : Comparison) {old new : Object} (hold : old.WellFormed)
    (hnew : new.WellFormed) (htyped : old.KeepsTyped) (htyped' : new.KeepsTyped) :
    (c.objectChanged old new).result = true ↔
      ∃ field ∉ c.volatileFields, samePart (old.toValue.member? field)
        ((Object.withVersionOf old new).toValue.member? field) = false := by
  obtain ⟨diff, hdiff, hempty⟩ := c.isEmpty_diff_iff (Object.wellFormed_toValue hold)
    (Object.wellFormed_toValue hnew) rfl rfl
  rw [Object.align_toValue htyped htyped' hnew] at hempty
  rw [objectChanged, result_changed, hdiff]
  simp only [Bool.not_eq_true', ← Bool.not_eq_true, hempty]
  simp only [not_forall, exists_prop]

end ReconcileTrigger
