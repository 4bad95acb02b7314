import ReconcileTrigger.Proofs.Object.Written
import ReconcileTrigger.Proofs.Timestamp

/-!
Objects are read back from the snapshots that they write. Each kind of value is read as it was
written, and a field is left out only when its value is the default that a missing field is read
as. So the fields of a record are read back one by one.
-/

namespace ReconcileTrigger

open Json (Value)

variable {α : Type}

namespace Json.Value

theorem listOf?_array_map {read : Value → Option α} {write : α → Value}
    (h : ∀ a, read (write a) = some a) (l : List α) :
    listOf? read (.array (l.map write)) = some l :=
  mapM_map_eq_some h l

theorem dictOf?_stringsToValue (d : Dict String) :
    dictOf? string? (stringsToValue d) = some d := by
  refine Option.map_eq_some_iff.2 ⟨d.entries, ?_, Dict.ofList_entries d⟩
  apply mapM_map_eq_some
  exact fun _ => rfl

theorem int64?_ofInt_toInt (n : Int64) : int64? (.ofInt n.toInt) = some n := by
  have hfits : Word.FitsSigned n.toInt := by
    have hlow := n.le_toInt
    have hhigh := n.toInt_lt
    unfold Word.FitsSigned
    omega
  rw [ofInt, int64?, if_pos hfits, Int64.ofInt_toInt]

/-- A value that is read, when null is not, is read as a value that may be null. -/
theorem nullable?_eq_some {read : Value → Option α} (hnull : read .null = none) {v : Value} {a : α}
    (h : read v = some a) : nullable? read v = some (some a) := by
  cases v with
  | null =>
    rw [hnull] at h
    contradiction
  | _ => simp only [nullable?, h, Option.map_some]

end Json.Value

theorem Timestamp.ofValue?_toValue (t : Timestamp) : ofValue? t.toValue = some t := by
  rw [toValue, ofValue?, Value.string?, Option.bind_some, parse?_text]

namespace Fields

variable {fields : Fields Value} {name : String} {read : Value → Option α}

theorem required?_of_lookup {v : Value} (h : fields.lookup name = some v) :
    fields.required? name read = read v := by
  rw [required?, h]

theorem optional?_of_lookup {default : α} {v : Value} (h : fields.lookup name = some v) :
    fields.optional? name default read = read v := by
  rw [optional?, h]

/-- A value that is written where there is one is read back. -/
theorem optional?_of_optionalMember {write : α → Value} {value : Option α}
    (h : fields.lookup name = value.map write) (hnull : read .null = none)
    (hread : ∀ a, read (write a) = some a) :
    fields.optional? name none (Value.nullable? read) = some value := by
  cases value with
  | none => rw [optional?, h, Option.map_none]
  | some a =>
    rw [optional?_of_lookup h]
    exact Value.nullable?_eq_some hnull (hread a)

/-- A value that is left out where it is the default is read back. -/
theorem optional?_of_nonEmptyMember {default a : α} {isEmpty : Bool} {v : Value}
    (h : fields.lookup name = if isEmpty then none else some v)
    (hempty : isEmpty = true → a = default) (hread : read v = some a) :
    fields.optional? name default read = some a := by
  cases isEmpty with
  | true => rw [optional?, h, if_pos rfl, hempty rfl]
  | false => rw [optional?_of_lookup h, hread]

end Fields

theorem OwnerReference.ofValue?_toValue (r : OwnerReference) : ofValue? r.toValue = some r := by
  obtain ⟨fields, hfields, hwritten⟩ := r.exists_writtenAs
  have hcontroller : fields.optional? "controller" none (Value.nullable? Value.bool?) =
      some r.controller :=
    Fields.optional?_of_optionalMember hwritten.controller rfl fun _ => rfl
  simp only [hfields, ofValue?, Value.fields?, Fields.required?_of_lookup hwritten.apiVersion,
    Fields.required?_of_lookup hwritten.kind, Fields.required?_of_lookup hwritten.name,
    Fields.optional?_of_lookup hwritten.uid, hcontroller, Value.string?, Option.bind_eq_bind,
    Option.bind_some, Option.pure_def]

theorem Metadata.ofValue?_toValue (m : Metadata) : ofValue? m.toValue = some m := by
  obtain ⟨fields, hfields, hwritten⟩ := m.exists_writtenAs
  have hname : fields.optional? "name" "" Value.string? = some m.name :=
    Fields.optional?_of_lookup hwritten.name
  have hnamespace : fields.optional? "namespace" none (Value.nullable? Value.string?) =
      some m.namespace :=
    Fields.optional?_of_optionalMember hwritten.namespace rfl fun _ => rfl
  have huid : fields.optional? "uid" none (Value.nullable? Value.string?) = some m.uid :=
    Fields.optional?_of_optionalMember hwritten.uid rfl fun _ => rfl
  have hlabels : fields.optional? "labels" ∅ (Value.dictOf? Value.string?) = some m.labels :=
    Fields.optional?_of_nonEmptyMember hwritten.labels Dict.eq_empty_of_isEmpty
      (Value.dictOf?_stringsToValue _)
  have hannotations : fields.optional? "annotations" ∅ (Value.dictOf? Value.string?) =
      some m.annotations :=
    Fields.optional?_of_nonEmptyMember hwritten.annotations Dict.eq_empty_of_isEmpty
      (Value.dictOf?_stringsToValue _)
  have hgeneration : fields.optional? "generation" 0 Value.int64? = some m.generation := by
    rw [Fields.optional?_of_lookup hwritten.generation, Value.int64?_ofInt_toInt]
  have hversion : fields.optional? "resourceVersion" none (Value.nullable? Value.string?) =
      some m.resourceVersion :=
    Fields.optional?_of_optionalMember hwritten.resourceVersion rfl fun _ => rfl
  have hdeletion : fields.optional? "deletionTimestamp" none
      (Value.nullable? Timestamp.ofValue?) = some m.deletionTimestamp :=
    Fields.optional?_of_optionalMember hwritten.deletionTimestamp rfl Timestamp.ofValue?_toValue
  have hcreation : fields.optional? "creationTimestamp" none
      (Value.nullable? Timestamp.ofValue?) = some m.creationTimestamp :=
    Fields.optional?_of_optionalMember hwritten.creationTimestamp rfl Timestamp.ofValue?_toValue
  have howners : fields.optional? "ownerReferences" []
      (Value.listOf? OwnerReference.ofValue?) = some m.ownerReferences :=
    Fields.optional?_of_nonEmptyMember hwritten.ownerReferences List.isEmpty_iff.1
      (Value.listOf?_array_map OwnerReference.ofValue?_toValue _)
  have hmanaged : fields.optional? "managedFields" [] Value.array? = some m.managedFields :=
    Fields.optional?_of_nonEmptyMember hwritten.managedFields List.isEmpty_iff.1 rfl
  simp only [hfields, ofValue?, Value.fields?, hname, hnamespace, huid, hlabels, hannotations,
    hgeneration, hversion, hdeletion, hcreation, howners, hmanaged, Option.bind_eq_bind,
    Option.bind_some, Option.pure_def]

namespace Object

variable {o : Object}

/-- Apart from the typed fields a snapshot is the body. -/
theorem hasBodyOf_toValue (h : o.KeepsTyped) : o.HasBodyOf o.toValue := by
  intro key
  by_cases hkey : key ∈ typedKeys
  · rw [if_pos hkey, h key hkey]
  · have htyped : o.typedMembers.reverse.lookup key = none := by
      apply List.lookup_eq_none_iff.2
      intro e he
      have hmem : e.1 ∈ typedKeys :=
        List.mem_map_of_mem (f := Prod.fst) (List.mem_reverse.1 he)
      have hne : key ≠ e.1 := by
        rintro rfl
        exact hkey hmem
      simpa using hne
    rw [if_neg hkey, member?_toValue, htyped, Option.or_none]

/-- An object whose body keeps the typed fields is read back from its snapshot. -/
theorem ofValue?_toValue (h : o.KeepsTyped) : ofValue? o.toValue = some o := by
  have hlookup : ∀ key, o.members.entries.lookup key =
      (o.field? key).or (o.typedMembers.reverse.lookup key) := o.member?_toValue
  have hversion : o.members.entries.lookup "apiVersion" = some (.string o.apiVersion) := by
    rw [hlookup, h _ (by decide), Option.none_or]
    rfl
  have hkind : o.members.entries.lookup "kind" = some (.string o.kind) := by
    rw [hlookup, h _ (by decide), Option.none_or]
    rfl
  have hmetadata : o.members.entries.lookup "metadata" = some o.metadata.toValue :=
    member?_metadata_toValue h
  have hbody : o.body = Dict.ofList (eraseEntries typedKeys o.members.entries) := by
    apply Dict.ext_get?
    intro key
    rw [Dict.get?_ofList_eraseEntries o.members.sorted]
    exact hasBodyOf_toValue h key
  refine ofValue?_eq_some_iff.2 ⟨o.members.entries, rfl, ?_, ?_, ?_, hbody⟩
  · exact Fields.optional?_of_lookup hversion
  · exact Fields.required?_of_lookup hkind
  · rw [Fields.optional?_of_lookup hmetadata, Metadata.ofValue?_toValue]

theorem ofSnapshot_toValue (h : o.KeepsTyped) : ofSnapshot o.toValue = .ok o :=
  ofSnapshot_eq_ok_iff.2 (ofValue?_toValue h)

end Object

end ReconcileTrigger
