import Mathlib.Data.List.Basic
import ReconcileTrigger.Json.Patch
import ReconcileTrigger.Proofs.Json.Agreement
import ReconcileTrigger.Proofs.Json.Position

/-!
Edits, the operations of a patch with their pointers taken from the part that they change. The
edits of a container are the edits of its parts, each one step further up, and a test says which
leaves are left alone. The operations of a patch are the edits that leave equal leaves alone.
-/

namespace ReconcileTrigger.Json

namespace Operation

def under (above : Pointer) : Operation → Operation
  | .add path value => .add (above ++ path) value
  | .remove path => .remove (above ++ path)
  | .replace path value => .replace (above ++ path) value

@[simp] theorem path_under (above : Pointer) (op : Operation) :
    (op.under above).path = above ++ op.path := by
  cases op <;> rfl

theorem under_under (above below : Pointer) (op : Operation) :
    (op.under below).under above = op.under (above ++ below) := by
  cases op <;> simp [under]

@[simp] theorem under_nil (op : Operation) : op.under [] = op := by
  cases op <;> rfl

end Operation

mutual

/-- The operations that turn the old document into the new one but for the leaves that `keep`
leaves alone. -/
def edits (keep : Value → Value → Bool) : Value → Value → List Operation
  | .object old, .object new => memberEdits keep old new ++ removals [] old new
  | .array old, .array new => elementEdits keep 0 old new
  | old, new => if keep old new then [] else [.replace [] new]

def memberEdits (keep : Value → Value → Bool) (old : List (String × Value)) :
    List (String × Value) → List Operation
  | [] => []
  | (key, value) :: rest =>
    (match old.lookup key with
      | some previous => (edits keep previous value).map (.under (Step.member key).pointer)
      | none => [.add (Step.member key).pointer value]) ++ memberEdits keep old rest

def elementEdits (keep : Value → Value → Bool) (index : Nat) :
    List Value → List Value → List Operation
  | old, [] => old.map fun _ => .remove (Step.element index).pointer
  | [], value :: new =>
    .add (Step.element index).pointer value :: elementEdits keep (index + 1) [] new
  | previous :: old, value :: new =>
    (edits keep previous value).map (.under (Step.element index).pointer) ++
      elementEdits keep (index + 1) old new

end

variable {keep : Value → Value → Bool}

theorem edits_of_isLeafPair {old new : Value} (h : Value.IsLeafPair old new) :
    edits keep old new = if keep old new then [] else [.replace [] new] :=
  edits.eq_3 keep old new h.not_objects h.not_arrays

theorem changes_of_isLeafPair (path : Pointer) {old new : Value} (h : Value.IsLeafPair old new) :
    changes path old new = if old.same new then [] else [.replace path new] :=
  changes.eq_3 path old new h.not_objects h.not_arrays

private theorem member_eq (path : Pointer) (key : String) :
    path.member key = path ++ (Step.member key).pointer := rfl

private theorem element_eq (path : Pointer) (index : Nat) :
    path.element index = path ++ (Step.element index).pointer := rfl

private theorem removals_eq (path : Pointer) (old new : List (String × Value)) :
    removals path old new = (removals [] old new).map (.under path) := by
  simp only [removals, List.map_map]
  rfl

private theorem memberChanges_eq_map_under {old new : List (String × Value)}
    (ih : ∀ key a b, old.lookup key = some a → (key, b) ∈ new → ∀ path,
      changes path a b = (edits Value.same a b).map (.under path)) (path : Pointer) :
    memberChanges path old new = (memberEdits Value.same old new).map (.under path) := by
  induction new with
  | nil => rfl
  | cons e rest ihrest =>
    obtain ⟨key, value⟩ := e
    have hrest := ihrest fun key' a b ha hb => ih key' a b ha (List.mem_cons_of_mem _ hb)
    rw [memberChanges, memberEdits, List.map_append, hrest]
    cases hold : old.lookup key with
    | none => rfl
    | some previous =>
      simp only [ih key previous value hold (List.mem_cons_self ..), List.map_map, member_eq]
      congr 2
      funext op
      exact (Operation.under_under _ _ op).symm

private theorem elementChanges_eq_map_under {old new : List Value}
    (ih : ∀ (i : Nat) a b, old[i]? = some a → new[i]? = some b → ∀ path,
      changes path a b = (edits Value.same a b).map (.under path)) (path : Pointer)
    (index : Nat) :
    elementChanges path index old new =
      (elementEdits Value.same index old new).map (.under path) := by
  induction new generalizing old index with
  | nil =>
    rw [elementChanges, elementEdits, List.map_map]
    rfl
  | cons value new ihnew =>
    cases old with
    | nil =>
      have hnone : ∀ (i : Nat) a b, ([] : List Value)[i]? = some a → new[i]? = some b → ∀ path,
          changes path a b = (edits Value.same a b).map (.under path) := by
        intro i a b ha
        simp at ha
      have hrest := ihnew hnone (index + 1)
      rw [elementChanges, elementEdits, List.map_cons, hrest]
      rfl
    | cons previous old =>
      have hparts : ∀ (i : Nat) a b, old[i]? = some a → new[i]? = some b → ∀ path,
          changes path a b = (edits Value.same a b).map (.under path) := by
        intro i a b ha hb
        exact ih (i + 1) a b ha hb
      have hrest := ihnew hparts (index + 1)
      rw [elementChanges, elementEdits, List.map_append, hrest, ih 0 previous value rfl rfl,
        List.map_map, element_eq]
      congr 2
      funext op
      exact (Operation.under_under _ _ op).symm

/-- The operations of a patch are the edits that leave equal leaves alone. -/
theorem changes_eq_map_under (path : Pointer) (old new : Value) :
    changes path old new = (edits Value.same old new).map (.under path) := by
  induction old, new using Value.inductionOnPairs generalizing path with
  | objects old new ih =>
    rw [changes, edits, List.map_append, memberChanges_eq_map_under ih, removals_eq]
  | arrays old new ih => rw [changes, edits, elementChanges_eq_map_under ih]
  | leaves old new h =>
    rw [changes_of_isLeafPair path h, edits_of_isLeafPair h]
    split
    · rfl
    · simp [Operation.under]

theorem changes_nil_eq_edits (old new : Value) : changes [] old new = edits Value.same old new := by
  rw [changes_eq_map_under]
  exact List.map_id'' Operation.under_nil _

def editsAt (keep : Value → Value → Bool) (step : Step) :
    Option Value → Option Value → List Operation
  | some old, some new => (edits keep old new).map (.under step.pointer)
  | none, some new => [.add step.pointer new]
  | some _, none => [.remove step.pointer]
  | none, none => []

theorem memberEdits_eq_flatMap (old new : List (String × Value)) :
    memberEdits keep old new =
      new.flatMap fun e => editsAt keep (.member e.1) (old.lookup e.1) (some e.2) := by
  induction new with
  | nil => rfl
  | cons e rest ih =>
    obtain ⟨key, value⟩ := e
    rw [memberEdits, List.flatMap_cons, ih]
    cases old.lookup key <;> rfl

theorem removals_eq_flatMap (old new : List (String × Value)) :
    removals [] old new = (old.filter fun e => (new.lookup e.1).isNone).flatMap fun e =>
      editsAt keep (.member e.1) (some e.2) none := by
  rw [removals, List.map_eq_flatMap]
  rfl

/-- The edits of an object are those below the new keys and those below the missing ones. -/
theorem edits_object (old new : List (String × Value)) :
    edits keep (.object old) (.object new) =
      (new.flatMap fun e => editsAt keep (.member e.1) (old.lookup e.1) (some e.2)) ++
        (old.filter fun e => (new.lookup e.1).isNone).flatMap fun e =>
          editsAt keep (.member e.1) (some e.2) none := by
  rw [edits, memberEdits_eq_flatMap, removals_eq_flatMap]

private theorem elementEdits_eq_flatMap (index : Nat) (old new : List Value) :
    elementEdits keep index old new =
      ((List.range new.length).flatMap fun i =>
        editsAt keep (.element (index + i)) old[i]? new[i]?) ++
      List.replicate (old.length - new.length)
        (.remove (Step.element (index + new.length)).pointer) := by
  induction new generalizing old index with
  | nil => simp [elementEdits, List.map_const']
  | cons value new ih =>
    have hlast : index + (value :: new).length = index + 1 + new.length := by
      rw [List.length_cons]
      omega
    have hshift : ∀ old : List Value, ((List.range new.length).flatMap fun i =>
        editsAt keep (.element (index + (i + 1))) old[i]? new[i]?) =
        (List.range new.length).flatMap fun i =>
          editsAt keep (.element (index + 1 + i)) old[i]? new[i]? := by
      intro old
      apply List.flatMap_congr
      intro i _
      rw [Nat.add_right_comm, Nat.add_assoc]
    rw [hlast, List.length_cons, List.range_succ_eq_map, List.flatMap_cons, List.flatMap_map]
    cases old with
    | nil =>
      rw [elementEdits, ih]
      simpa [editsAt] using (hshift []).symm
    | cons previous old =>
      rw [elementEdits, ih, ← hshift old, List.append_assoc, List.length_cons,
        Nat.add_sub_add_right]
      rfl

/-- The edits of an array are those below the new indices and as many removals as there are surplus
elements, all of them at the first index behind the new ones. -/
theorem edits_array (old new : List Value) :
    edits keep (.array old) (.array new) =
      ((List.range new.length).flatMap fun i => editsAt keep (.element i) old[i]? new[i]?) ++
        List.replicate (old.length - new.length) (.remove (Step.element new.length).pointer) := by
  rw [edits, elementEdits_eq_flatMap]
  simp only [Nat.zero_add]

/-- The operation is at a position of a document, and only a replacement is at the root. -/
def Operation.IsPlaced (op : Operation) : Prop :=
  ∃ p : Position, op.path = p.pointer ∧ (p = [] → ∃ value, op = .replace [] value)

theorem Operation.IsPlaced.exists_segments {op : Operation} (h : op.IsPlaced) :
    ∃ keys, op.path.segments? = some keys := by
  obtain ⟨p, hp, _⟩ := h
  exact ⟨_, hp ▸ p.segments?_pointer⟩

private theorem isPlaced_of_mem_editsAt {step : Step} {old new : Option Value} {op : Operation}
    (ih : ∀ a b, old = some a → new = some b → ∀ op ∈ edits keep a b, op.IsPlaced)
    (h : op ∈ editsAt keep step old new) : op.IsPlaced := by
  have hsingle : step.pointer = Position.pointer [step] := (List.append_nil _).symm
  unfold editsAt at h
  split at h
  · rename_i a b
    obtain ⟨op, hop, rfl⟩ := List.mem_map.1 h
    obtain ⟨p, hp, _⟩ := ih a b rfl rfl op hop
    refine ⟨step :: p, ?_, fun hnil => by cases hnil⟩
    rw [Operation.path_under, hp]
    rfl
  · obtain rfl := List.mem_singleton.1 h
    exact ⟨[step], hsingle, fun hnil => by cases hnil⟩
  · obtain rfl := List.mem_singleton.1 h
    exact ⟨[step], hsingle, fun hnil => by cases hnil⟩
  · simp at h

theorem isPlaced_of_mem_edits {old new : Value} {op : Operation} (h : op ∈ edits keep old new) :
    op.IsPlaced := by
  induction old, new using Value.inductionOnPairs generalizing op with
  | objects old new ih =>
    rw [edits_object, List.mem_append] at h
    rcases h with h | h
    · obtain ⟨e, he, hop⟩ := List.mem_flatMap.1 h
      refine isPlaced_of_mem_editsAt (fun a b ha hb op hop => ?_) hop
      obtain rfl : e.2 = b := Option.some.inj hb
      exact ih e.1 a e.2 ha he hop
    · obtain ⟨e, _, hop⟩ := List.mem_flatMap.1 h
      exact isPlaced_of_mem_editsAt (fun _ _ _ hb => by cases hb) hop
  | arrays old new ih =>
    rw [edits_array, List.mem_append] at h
    rcases h with h | h
    · obtain ⟨i, _, hop⟩ := List.mem_flatMap.1 h
      exact isPlaced_of_mem_editsAt (fun a b ha hb op hop => ih i a b ha hb hop) hop
    · obtain ⟨_, rfl⟩ := List.mem_replicate.1 h
      exact ⟨[.element new.length], (List.append_nil _).symm, fun hnil => by cases hnil⟩
  | leaves old new hpair =>
    rw [edits_of_isLeafPair hpair] at h
    split at h
    · simp at h
    · obtain rfl := List.mem_singleton.1 h
      exact ⟨[], rfl, fun _ => ⟨new, rfl⟩⟩

end ReconcileTrigger.Json
