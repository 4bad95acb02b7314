import Mathlib.Data.List.Nodup
import ReconcileTrigger.Proofs.Json.Application
import ReconcileTrigger.Proofs.Json.EditSteps

/-!
What the edits make of the old document. Applied in their order they always succeed, and give the
new document but for the leaves that are left alone, which stay as they were. Below one object the
keys may come in any order: the edits of a key touch nothing under the others.
-/

namespace ReconcileTrigger.Json

open Operation (applyAll? applyAll?_append applyAll?_map_under)

mutual

/-- The new document, but with the leaves of the old one where `keep` leaves them alone. -/
def edited (keep : Value → Value → Bool) : Value → Value → Value
  | .object old, .object new => .object (editedMembers keep old new)
  | .array old, .array new => .array (editedElements keep old new)
  | old, new => if keep old new then old else new

def editedMembers (keep : Value → Value → Bool) (old : List (String × Value)) :
    List (String × Value) → List (String × Value)
  | [] => []
  | (key, value) :: rest =>
    (key, match old.lookup key with
      | some previous => edited keep previous value
      | none => value) :: editedMembers keep old rest

def editedElements (keep : Value → Value → Bool) : List Value → List Value → List Value
  | _, [] => []
  | [], new => new
  | previous :: old, value :: new => edited keep previous value :: editedElements keep old new

end

def editedAt (keep : Value → Value → Bool) : Option Value → Option Value → Option Value
  | some old, some new => some (edited keep old new)
  | none, new => new
  | some _, none => none

variable {keep : Value → Value → Bool}

theorem edited_of_isLeafPair {old new : Value} (h : Value.IsLeafPair old new) :
    edited keep old new = if keep old new then old else new :=
  edited.eq_3 keep old new h.not_objects h.not_arrays

theorem editedAt_none (old : Option Value) : editedAt keep old none = none := by
  cases old <;> rfl

theorem lookup_editedMembers (old new : List (String × Value)) (key : String) :
    (editedMembers keep old new).lookup key =
      editedAt keep (old.lookup key) (new.lookup key) := by
  induction new with
  | nil => exact (editedAt_none _).symm
  | cons e rest ih =>
    obtain ⟨k, value⟩ := e
    rw [editedMembers]
    by_cases hkey : key = k
    · subst hkey
      rw [List.lookup_cons_self, List.lookup_cons_self]
      cases old.lookup key <;> rfl
    · have hne : (key == k) = false := by simpa using hkey
      simp only [List.lookup_cons, hne]
      exact ih

theorem keys_editedMembers (old new : List (String × Value)) :
    (editedMembers keep old new).map Prod.fst = new.map Prod.fst := by
  induction new with
  | nil => rfl
  | cons e rest ih => rw [editedMembers, List.map_cons, List.map_cons, ih]

theorem sortedKeys_editedMembers {old new : List (String × Value)} (h : SortedKeys new) :
    SortedKeys (editedMembers keep old new) := by
  rw [SortedKeys, keys_editedMembers]
  exact h

theorem getElem?_editedElements (old new : List Value) (i : Nat) :
    (editedElements keep old new)[i]? = editedAt keep old[i]? new[i]? := by
  induction new generalizing old i with
  | nil =>
    rw [editedElements]
    exact (editedAt_none _).symm
  | cons value new ih =>
    cases old with
    | nil => rfl
    | cons previous old =>
      rw [editedElements]
      cases i with
      | zero => rfl
      | succ i => exact ih old i

theorem length_editedElements (old new : List Value) :
    (editedElements keep old new).length = new.length := by
  induction new generalizing old with
  | nil => rw [editedElements]
  | cons value new ih =>
    cases old with
    | nil => rfl
    | cons previous old => rw [editedElements, List.length_cons, List.length_cons, ih]

theorem applyTo?_add_member (key : String) (value : Value) (members : List (String × Value)) :
    (Operation.add (Step.member key).pointer value).applyTo? (.object members) =
      some (.object (insertEntry key value members)) := by
  have hpath : (Operation.add (Step.member key).pointer value).path = (Step.member key).pointer :=
    rfl
  rw [Operation.applyTo?_of_path_eq hpath]
  simp [Operation.applyToChild?, Value.addChild?, Step.segment]

theorem applyTo?_remove_member {key : String} {value : Value} {members : List (String × Value)}
    (h : members.lookup key = some value) :
    (Operation.remove (Step.member key).pointer).applyTo? (.object members) =
      some (.object (eraseEntry key members)) := by
  have hpath : (Operation.remove (Step.member key).pointer).path = (Step.member key).pointer := rfl
  rw [Operation.applyTo?_of_path_eq hpath]
  simp [Operation.applyToChild?, Value.removeChild?, Step.segment, h]

/-- The edits below a key bind it to what becomes of its value, and touch no other key. -/
theorem applyAll?_editsAt_member {key : String} {members : List (String × Value)}
    (hsorted : SortedKeys members) {new : Option Value}
    (ih : ∀ a b, members.lookup key = some a → new = some b →
      applyAll? (edits keep a b) a = some (edited keep a b)) :
    applyAll? (editsAt keep (.member key) (members.lookup key) new) (.object members) =
      some (.object (setEntry key (editedAt keep (members.lookup key) new) members)) := by
  cases hold : members.lookup key with
  | none =>
    cases new with
    | none =>
      have hself := setEntry_lookup hsorted key
      rw [hold] at hself
      exact congrArg (some ∘ Value.object) hself.symm
    | some b => exact (Operation.applyAll?_singleton _ _).trans (applyTo?_add_member key b members)
  | some a =>
    cases new with
    | none => exact (Operation.applyAll?_singleton _ _).trans (applyTo?_remove_member hold)
    | some b =>
      have hplaced : ∀ op ∈ edits keep a b, op.IsPlaced := fun _ => isPlaced_of_mem_edits
      have hchild : (Step.member key).child? (.object members) = some a := hold
      have hsorted : (Value.object members).HasSortedKeys := hsorted
      rw [editsAt, applyAll?_map_under hsorted hchild hplaced, ih a b hold rfl]
      rfl

/-- Edits below distinct keys, in any order of the keys. -/
private theorem applyAll?_flatMap_member {keys : List String} (hkeys : keys.Nodup)
    {old new members : List (String × Value)} (hsorted : SortedKeys members)
    (hmembers : ∀ key ∈ keys, members.lookup key = old.lookup key)
    (ih : ∀ key a b, old.lookup key = some a → new.lookup key = some b →
      applyAll? (edits keep a b) a = some (edited keep a b)) :
    applyAll? (keys.flatMap fun key => editsAt keep (.member key) (old.lookup key)
      (new.lookup key)) (.object members) =
      some (.object (setEntries (fun key => editedAt keep (old.lookup key) (new.lookup key))
        keys members)) := by
  induction keys generalizing members with
  | nil => rfl
  | cons key rest ihrest =>
    obtain ⟨hkey, hrest⟩ := List.nodup_cons.1 hkeys
    have hlookup := hmembers key (List.mem_cons_self ..)
    have hfirst : applyAll? (editsAt keep (.member key) (members.lookup key) (new.lookup key))
        (.object members) = _ :=
      applyAll?_editsAt_member hsorted fun a b ha hb => ih key a b (hlookup ▸ ha) hb
    rw [hlookup] at hfirst
    rw [List.flatMap_cons, applyAll?_append, hfirst, Option.bind_some]
    apply ihrest hrest (sortedKeys_setEntry hsorted)
    intro other hother
    have hne : other ≠ key := by
      rintro rfl
      exact hkey hother
    rw [lookup_setEntry_of_ne hne]
    exact hmembers other (List.mem_cons_of_mem _ hother)

/-- The edits between two objects may come in any order of the keys, and keys without edits may be
left out. -/
theorem applyAll?_edits_members {keys : List String} (hkeys : keys.Nodup)
    {old new : List (String × Value)} (hold : SortedKeys old) (hnew : SortedKeys new)
    (hall : ∀ key ∉ keys, editsAt keep (.member key) (old.lookup key) (new.lookup key) = [])
    (ih : ∀ key a b, old.lookup key = some a → new.lookup key = some b →
      applyAll? (edits keep a b) a = some (edited keep a b)) :
    applyAll? (keys.flatMap fun key => editsAt keep (.member key) (old.lookup key)
      (new.lookup key)) (.object old) = some (edited keep (.object old) (.object new)) := by
  rw [applyAll?_flatMap_member hkeys hold (fun _ _ => rfl) ih, edited]
  congr 2
  apply eq_of_lookup_eq (sortedKeys_setEntries hold) (sortedKeys_editedMembers hnew)
  intro key
  rw [lookup_setEntries, lookup_editedMembers]
  split
  · rfl
  · rename_i hkey
    have hnil := hall key hkey
    cases ha : old.lookup key with
    | none =>
      cases hb : new.lookup key with
      | none => rfl
      | some b => simp [ha, hb, editsAt] at hnil
    | some a =>
      cases hb : new.lookup key with
      | none => simp [ha, hb, editsAt] at hnil
      | some b =>
        have hedits : edits keep a b = [] := by simpa [ha, hb, editsAt] using hnil
        have hself := ih key a b ha hb
        rw [hedits] at hself
        exact hself

/-- An element is added at the index behind the last one. -/
theorem applyTo?_add_element (value : Value) (elements : List Value) :
    (Operation.add (Step.element elements.length).pointer value).applyTo? (.array elements) =
      some (.array (elements ++ [value])) := by
  have hpath : (Operation.add (Step.element elements.length).pointer value).path =
      (Step.element elements.length).pointer := rfl
  rw [Operation.applyTo?_of_path_eq hpath]
  simp [Operation.applyToChild?, Value.addChild?, Step.segment, Pointer.insertionIndex?_toDigits]

theorem applyTo?_remove_element {index : Nat} {elements : List Value}
    (h : index < elements.length) :
    (Operation.remove (Step.element index).pointer).applyTo? (.array elements) =
      some (.array (elements.eraseIdx index)) := by
  have hpath : (Operation.remove (Step.element index).pointer).path =
      (Step.element index).pointer := rfl
  rw [Operation.applyTo?_of_path_eq hpath]
  simp [Operation.applyToChild?, Value.removeChild?, Step.segment, Pointer.index?_toDigits, h]

/-- Removals at one index remove the elements from there on. -/
private theorem applyAll?_removals (done rest : List Value) :
    applyAll? (rest.map fun _ => .remove (Step.element done.length).pointer)
      (.array (done ++ rest)) = some (.array done) := by
  induction rest with
  | nil => rw [List.append_nil]; rfl
  | cons value rest ih =>
    have hlt : done.length < (done ++ value :: rest).length := by
      rw [List.length_append, List.length_cons]
      omega
    have herase : (done ++ value :: rest).eraseIdx done.length = done ++ rest := by
      rw [List.eraseIdx_append_of_length_le (Nat.le_refl _), Nat.sub_self]
      rfl
    rw [List.map_cons, Operation.applyAll?_cons, applyTo?_remove_element hlt, Option.bind_some,
      herase, ih]

/-- The edits from one index on, where the elements in front of it are done. -/
private theorem applyAll?_elementEdits (done : List Value) {old new : List Value}
    (ih : ∀ (i : Nat) a b, old[i]? = some a → new[i]? = some b →
      applyAll? (edits keep a b) a = some (edited keep a b)) :
    applyAll? (elementEdits keep done.length old new) (.array (done ++ old)) =
      some (.array (done ++ editedElements keep old new)) := by
  induction new generalizing done old with
  | nil =>
    rw [elementEdits, editedElements, List.append_nil]
    exact applyAll?_removals done old
  | cons value new ihnew =>
    have hlength : ∀ part : Value, done.length + 1 = (done ++ [part]).length := by simp
    cases old with
    | nil =>
      have hnone : ∀ (i : Nat) a b, ([] : List Value)[i]? = some a → new[i]? = some b →
          applyAll? (edits keep a b) a = some (edited keep a b) := by
        intro i a b ha
        simp at ha
      have hnew : editedElements keep [] new = new := by
        cases new <;> rfl
      have hrest := ihnew (done ++ [value]) hnone
      rw [List.append_nil, hnew, List.append_assoc, ← hlength value] at hrest
      rw [List.append_nil, elementEdits, Operation.applyAll?_cons, applyTo?_add_element,
        Option.bind_some, hrest]
      rfl
    | cons previous old =>
      have hparts : ∀ (i : Nat) a b, old[i]? = some a → new[i]? = some b →
          applyAll? (edits keep a b) a = some (edited keep a b) := by
        intro i a b ha hb
        exact ih (i + 1) a b ha hb
      have hrest := ihnew (done ++ [edited keep previous value]) hparts
      have hsorted : (Value.array (done ++ previous :: old)).HasSortedKeys := trivial
      have hchild : (Step.element done.length).child? (.array (done ++ previous :: old)) =
          some previous := by simp [Step.child?]
      have hplaced : ∀ op ∈ edits keep previous value, op.IsPlaced := fun _ => isPlaced_of_mem_edits
      have hput : (Step.element done.length).put (edited keep previous value)
          (.array (done ++ previous :: old)) =
          .array (done ++ [edited keep previous value] ++ old) := by simp [Step.put]
      rw [elementEdits, applyAll?_append, applyAll?_map_under hsorted hchild hplaced,
        ih 0 previous value rfl rfl, Option.map_some, Option.bind_some, hput,
        hlength (edited keep previous value), hrest, editedElements, List.append_assoc]
      rfl

/-- The edits apply one after another, and make the edited document of the old one. -/
theorem applyAll?_edits {old new : Value} (hold : old.WellFormed) (hnew : new.WellFormed) :
    applyAll? (edits keep old new) old = some (edited keep old new) := by
  induction old, new using Value.inductionOnPairs with
  | objects old new ih =>
    have hsorted := (Value.wellFormed_object_iff.1 hold).1
    have hsorted' := (Value.wellFormed_object_iff.1 hnew).1
    rw [edits_object_eq_flatMap hsorted']
    apply applyAll?_edits_members (nodup_editedKeys hsorted hsorted') hsorted hsorted'
    · exact fun key => editsAt_of_notMem_editedKeys
    · intro key a b ha hb
      exact ih key a b ha (mem_of_lookup_eq_some hb) (hold.lookup ha) (hnew.lookup hb)
  | arrays old new ih =>
    have hparts : ∀ (i : Nat) a b, old[i]? = some a → new[i]? = some b →
        applyAll? (edits keep a b) a = some (edited keep a b) := by
      intro i a b ha hb
      exact ih i a b ha hb (hold.getElem? ha) (hnew.getElem? hb)
    rw [edits, edited]
    exact applyAll?_elementEdits [] hparts
  | leaves old new hpair =>
    rw [edits_of_isLeafPair hpair, edited_of_isLeafPair hpair]
    split <;> rfl

end ReconcileTrigger.Json
