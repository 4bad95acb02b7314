import Mathlib.Data.List.Nodup
import ReconcileTrigger.Proofs.Json.Edited

/-!
Which operations leave a part of a document alone. An operation below one step changes nothing
below the others, but an element that comes or goes moves those behind it. None of the edits between
two documents disturbs what another one replaces, so the replaced part stays at its position,
whichever of the other edits are applied before.
-/

namespace ReconcileTrigger.Json

namespace Step

inductive IsBeside : Step → Step → Prop
  | member {other key : String} (h : other ≠ key) : IsBeside (.member other) (.member key)
  | element {other index : Nat} (h : other ≠ index) : IsBeside (.element other) (.element index)

/-- A part that comes or goes at the first step is not in front of the one at the second step. -/
inductive IsBehind : Step → Step → Prop
  | member {other key : String} (h : other ≠ key) : IsBehind (.member other) (.member key)
  | element {other index : Nat} (h : index < other) : IsBehind (.element other) (.element index)

variable {other step : Step} {v w child : Value}

theorem IsBeside.child?_of_changeChild? (h : other.IsBeside step)
    {change : Value → Option Value} (hw : v.changeChild? other.segment change = some w)
    (hchild : step.child? v = some child) : step.child? w = some child := by
  cases h with
  | member hne =>
    cases v with
    | object members =>
      obtain ⟨_, _, hw⟩ := Option.bind_eq_some_iff.1 hw
      obtain ⟨next, _, hw⟩ := Option.bind_eq_some_iff.1 hw
      obtain rfl := Option.some.inj hw
      rw [segment, String.ofList_toList, Step.child?, lookup_insertEntry_of_ne hne.symm]
      exact hchild
    | _ => contradiction
  | element hne =>
    cases v with
    | array elements =>
      obtain ⟨index, hindex, hw⟩ := Option.bind_eq_some_iff.1 hw
      obtain ⟨_, _, hw⟩ := Option.bind_eq_some_iff.1 hw
      obtain ⟨next, _, hw⟩ := Option.bind_eq_some_iff.1 hw
      obtain rfl := Option.some.inj hw
      rw [segment, Pointer.index?_toDigits] at hindex
      obtain rfl := Option.some.inj hindex
      rw [Step.child?, List.getElem?_set_ne hne]
      exact hchild
    | _ => contradiction

theorem IsBehind.child?_of_addChild? (h : other.IsBehind step) {part : Value}
    (hw : Value.addChild? other.segment part v = some w) (hchild : step.child? v = some child) :
    step.child? w = some child := by
  cases h with
  | member hne =>
    cases v with
    | object members =>
      obtain rfl := Option.some.inj hw
      rw [segment, String.ofList_toList, Step.child?, lookup_insertEntry_of_ne hne.symm]
      exact hchild
    | _ => contradiction
  | element hlt =>
    cases v with
    | array elements =>
      rw [segment, Value.addChild?, Pointer.insertionIndex?_toDigits] at hw
      obtain ⟨index, hindex, rfl⟩ := Option.map_eq_some_iff.1 hw
      obtain ⟨_, hindex⟩ := Option.ite_none_right_eq_some.1 hindex
      obtain rfl := Option.some.inj hindex
      rw [Step.child?, List.getElem?_insertIdx_of_lt hlt]
      exact hchild
    | _ => contradiction

theorem IsBehind.child?_of_removeChild? (h : other.IsBehind step)
    (hw : v.removeChild? other.segment = some w) (hchild : step.child? v = some child) :
    step.child? w = some child := by
  cases h with
  | member hne =>
    cases v with
    | object members =>
      obtain ⟨_, _, rfl⟩ := Option.map_eq_some_iff.1 hw
      rw [segment, String.ofList_toList, Step.child?, lookup_eraseEntry_of_ne hne.symm]
      exact hchild
    | _ => contradiction
  | element hlt =>
    cases v with
    | array elements =>
      obtain ⟨index, hindex, hw⟩ := Option.bind_eq_some_iff.1 hw
      obtain ⟨_, hw⟩ := Option.ite_none_right_eq_some.1 hw
      obtain rfl := Option.some.inj hw
      rw [segment, Pointer.index?_toDigits] at hindex
      obtain rfl := Option.some.inj hindex
      rw [Step.child?, List.getElem?_eraseIdx_of_lt hlt]
      exact hchild
    | _ => contradiction

/-- Where one of two containers has no part and both have one at another step, the first step is
behind: all elements that both arrays have come before those of one array only. -/
theorem IsBeside.isBehind (h : other.IsBeside step) {old new a b : Value}
    (hold : step.child? old = some a) (hnew : step.child? new = some b)
    (hmissing : other.child? old = none ∨ other.child? new = none) : other.IsBehind step := by
  cases h with
  | member hne => exact .member hne
  | element hne =>
    cases old with
    | array old =>
      cases new with
      | array new =>
        have hlt := (List.getElem?_eq_some_iff.1 hold).1
        have hlt' := (List.getElem?_eq_some_iff.1 hnew).1
        rcases hmissing with hnone | hnone
        · have hle := List.getElem?_eq_none_iff.1 hnone
          exact .element (by omega)
        · have hle := List.getElem?_eq_none_iff.1 hnone
          exact .element (by omega)
      | _ => contradiction
    | _ => contradiction

end Step

namespace Operation

/-- The operation leaves the part at a position as it is, in every document that has one there. -/
def Spares (op : Operation) (p : Position) : Prop :=
  ∀ v w part : Value, op.applyTo? v = some w → v.at? p = some part → w.at? p = some part

variable {other step : Step}

theorem spares_cons {op : Operation} (p : Position)
    (h : ∀ v w child : Value, op.applyTo? v = some w → step.child? v = some child →
      step.child? w = some child) : op.Spares (step :: p) := by
  intro v w part hw hpart
  obtain ⟨child, hchild, hpart⟩ := Value.at?_cons_eq_some_iff.1 hpart
  exact Value.at?_cons_eq_some_iff.2 ⟨child, h v w child hw hchild, hpart⟩

theorem spares_under {op : Operation} (hop : op.IsPlaced) (h : other.IsBeside step)
    (p : Position) : (op.under other.pointer).Spares (step :: p) := by
  apply spares_cons
  intro v w child hw hchild
  rw [applyTo?_under_eq_changeChild? hop] at hw
  exact h.child?_of_changeChild? hw hchild

theorem spares_add (value : Value) (h : other.IsBehind step) (p : Position) :
    (add other.pointer value).Spares (step :: p) := by
  apply spares_cons
  intro v w child hw hchild
  have hpath : (add other.pointer value).path = other.pointer := rfl
  rw [applyTo?_of_path_eq hpath] at hw
  exact h.child?_of_addChild? hw hchild

theorem spares_remove (h : other.IsBehind step) (p : Position) :
    (remove other.pointer).Spares (step :: p) := by
  apply spares_cons
  intro v w child hw hchild
  have hpath : (remove other.pointer).path = other.pointer := rfl
  rw [applyTo?_of_path_eq hpath] at hw
  exact h.child?_of_removeChild? hw hchild

theorem Spares.under {op : Operation} {p : Position} (h : op.Spares p) (hop : op.IsPlaced)
    (step : Step) : (op.under step.pointer).Spares (step :: p) := by
  intro v w part hw hpart
  obtain ⟨child, hchild, hpart⟩ := Value.at?_cons_eq_some_iff.1 hpart
  rw [applyTo?_under hchild hop] at hw
  obtain ⟨next, hnext, rfl⟩ := Option.map_eq_some_iff.1 hw
  have hpart' := h child next part hnext hpart
  exact Value.at?_cons_eq_some_iff.2 ⟨next, step.child?_put hchild next, hpart'⟩

/-- A run of operations that all leave a position alone. -/
theorem at?_of_spares {ops : List Operation} {p : Position} (h : ∀ op ∈ ops, op.Spares p)
    {v w part : Value} (hw : applyAll? ops v = some w) (hpart : v.at? p = some part) :
    w.at? p = some part := by
  induction ops generalizing v with
  | nil =>
    obtain rfl := Option.some.inj hw
    exact hpart
  | cons op rest ih =>
    rw [applyAll?_cons] at hw
    obtain ⟨next, hnext, hw⟩ := Option.bind_eq_some_iff.1 hw
    obtain ⟨hop, hrest⟩ := List.forall_mem_cons.1 h
    exact ih hrest hw (hop v next part hnext hpart)

/-- A replacement puts its value at the position of its pointer. -/
theorem exists_applyTo?_replace {p : Position} {v part : Value} (h : v.at? p = some part)
    (value : Value) :
    ∃ w, (replace p.pointer value).applyTo? v = some w ∧ w.at? p = some value := by
  induction p generalizing v with
  | nil => exact ⟨value, rfl, rfl⟩
  | cons step rest ih =>
    obtain ⟨child, hchild, hrest⟩ := Value.at?_cons_eq_some_iff.1 h
    obtain ⟨next, hnext, hvalue⟩ := ih hrest
    have hplaced : (replace (Position.pointer rest) value).IsPlaced := by
      refine ⟨rest, rfl, ?_⟩
      rintro rfl
      exact ⟨value, rfl⟩
    have hunder : replace (Position.pointer (step :: rest)) value =
        (replace (Position.pointer rest) value).under step.pointer := rfl
    refine ⟨step.put next v, ?_, ?_⟩
    · rw [hunder, applyTo?_under hchild hplaced, hnext, Option.map_some]
    · exact Value.at?_cons_eq_some_iff.2 ⟨next, step.child?_put hchild next, hvalue⟩

/-- The operation leaves alone what another one replaces in a document. -/
def SparesTarget (v : Value) (op other : Operation) : Prop :=
  ∀ path value, other = .replace path value →
    ∃ (p : Position) (part : Value), path = p.pointer ∧ v.at? p = some part ∧ op.Spares p

def Apart (v : Value) (op other : Operation) : Prop :=
  op.SparesTarget v other ∧ other.SparesTarget v op

theorem SparesTarget.under {v child : Value} (hchild : step.child? v = some child)
    {op other : Operation} (h : op.SparesTarget child other) (hop : op.IsPlaced) :
    (op.under step.pointer).SparesTarget v (other.under step.pointer) := by
  intro path value heq
  cases other with
  | replace below value' =>
    obtain ⟨rfl, rfl⟩ := replace.inj heq
    obtain ⟨p, part, rfl, hp, hspares⟩ := h below value' rfl
    exact ⟨step :: p, part, rfl, Value.at?_cons_eq_some_iff.2 ⟨child, hchild, hp⟩,
      hspares.under hop step⟩
  | _ => cases heq

end Operation

open Operation (Apart SparesTarget)

variable {keep : Value → Value → Bool}

/-- Edits below one step leave alone what both containers have at another step. -/
theorem spares_of_mem_editsAt {other step : Step} (h : other.IsBeside step) {old new a b : Value}
    (hold : step.child? old = some a) (hnew : step.child? new = some b) {op : Operation}
    (hop : op ∈ editsAt keep other (other.child? old) (other.child? new)) (p : Position) :
    op.Spares (step :: p) := by
  cases hx : other.child? old with
  | none =>
    cases hy : other.child? new with
    | none => simp [hx, hy, editsAt] at hop
    | some y =>
      rw [hx, hy] at hop
      obtain rfl := List.mem_singleton.1 hop
      exact Operation.spares_add y (h.isBehind hold hnew (.inl hx)) p
  | some x =>
    cases hy : other.child? new with
    | none =>
      rw [hx, hy] at hop
      obtain rfl := List.mem_singleton.1 hop
      exact Operation.spares_remove (h.isBehind hold hnew (.inr hy)) p
    | some y =>
      rw [hx, hy] at hop
      obtain ⟨op, hmem, rfl⟩ := List.mem_map.1 hop
      exact Operation.spares_under (isPlaced_of_mem_edits hmem) h p

theorem exists_of_replace_mem_editsAt {step : Step} {old new : Option Value} {path : Pointer}
    {value : Value} (h : Operation.replace path value ∈ editsAt keep step old new) :
    ∃ a b below, old = some a ∧ new = some b ∧ path = step.pointer ++ below ∧
      Operation.replace below value ∈ edits keep a b := by
  unfold editsAt at h
  split at h
  · rename_i a b
    obtain ⟨op, hop, heq⟩ := List.mem_map.1 h
    cases op with
    | replace below value' =>
      obtain ⟨rfl, rfl⟩ := Operation.replace.inj heq
      exact ⟨a, b, below, rfl, rfl, rfl, hop⟩
    | _ => cases heq
  · cases List.mem_singleton.1 h
  · cases List.mem_singleton.1 h
  · simp at h

private theorem sparesTarget_of_isBeside {other step : Step} (h : other.IsBeside step)
    {old new : Value} (hwf : new.WellFormed) {x y : Operation}
    (hx : x ∈ editsAt keep other (other.child? old) (other.child? new))
    (hy : y ∈ editsAt keep step (step.child? old) (step.child? new)) :
    x.SparesTarget old y := by
  rintro path value rfl
  obtain ⟨a, b, below, hold, hnew, rfl, hmem⟩ := exists_of_replace_mem_editsAt hy
  obtain ⟨p, part, rfl, hpart, _⟩ := (isEdit_of_mem_edits (hwf.child? hnew) hmem).of_replace
  exact ⟨step :: p, part, rfl, Value.at?_cons_eq_some_iff.2 ⟨a, hold, hpart⟩,
    spares_of_mem_editsAt h hold hnew hx p⟩

private theorem pairwise_editsAt (step : Step) (old new : Value)
    (ih : ∀ a b, step.child? old = some a → step.child? new = some b →
      (edits keep a b).Pairwise (Apart a)) :
    (editsAt keep step (step.child? old) (step.child? new)).Pairwise (Apart old) := by
  cases hold : step.child? old with
  | none => cases step.child? new <;> simp [editsAt]
  | some a =>
    cases hnew : step.child? new with
    | none => exact List.pairwise_singleton _ _
    | some b =>
      rw [editsAt, List.pairwise_map]
      refine (ih a b hold hnew).imp_of_mem ?_
      rintro x y hx hy ⟨hxy, hyx⟩
      exact ⟨hxy.under hold (isPlaced_of_mem_edits hx), hyx.under hold (isPlaced_of_mem_edits hy)⟩

/-- No edit disturbs what another one replaces. Two edits are below the same step, and then it is a
matter of the parts there, or they are below steps beside each other. -/
theorem pairwise_apart_edits {old new : Value} (hold : old.WellFormed) (hnew : new.WellFormed) :
    (edits keep old new).Pairwise (Apart old) := by
  induction old, new using Value.inductionOnPairs with
  | objects old new ih =>
    have hsorted := (Value.wellFormed_object_iff.1 hold).1
    have hsorted' := (Value.wellFormed_object_iff.1 hnew).1
    rw [edits_object_eq_flatMap hsorted', List.pairwise_flatMap]
    refine ⟨?_, (nodup_editedKeys hsorted hsorted').imp ?_⟩
    · intro key _
      apply pairwise_editsAt (.member key) (.object old) (.object new)
      intro a b ha hb
      exact ih key a b ha (mem_of_lookup_eq_some hb) (hold.lookup ha) (hnew.lookup hb)
    · intro key key' hne x hx y hy
      exact ⟨sparesTarget_of_isBeside (.member hne) hnew hx hy,
        sparesTarget_of_isBeside (.member hne.symm) hnew hy hx⟩
  | arrays old new ih =>
    rw [edits_array, List.pairwise_append, List.pairwise_flatMap]
    refine ⟨⟨?_, List.nodup_range.imp ?_⟩, List.pairwise_replicate.2 (.inr ⟨nofun, nofun⟩), ?_⟩
    · intro i _
      apply pairwise_editsAt (.element i) (.array old) (.array new)
      intro a b ha hb
      exact ih i a b ha hb (hold.getElem? ha) (hnew.getElem? hb)
    · intro i j hne x hx y hy
      exact ⟨sparesTarget_of_isBeside (.element hne) hnew hx hy,
        sparesTarget_of_isBeside (.element hne.symm) hnew hy hx⟩
    · -- the removals at the end are what is edited below the first index that the new array lacks
      intro x hx y hy
      obtain ⟨i, hi, hx⟩ := List.mem_flatMap.1 hx
      obtain ⟨hsurplus, rfl⟩ := List.mem_replicate.1 hy
      have hlt : new.length < old.length := by omega
      have hremove : Operation.remove (Step.element new.length).pointer ∈
          editsAt keep (.element new.length) old[new.length]? new[new.length]? := by
        rw [List.getElem?_eq_getElem hlt, List.getElem?_eq_none (Nat.le_refl _)]
        exact List.mem_singleton_self _
      have hne : new.length ≠ i := Nat.ne_of_gt (List.mem_range.1 hi)
      exact ⟨sparesTarget_of_isBeside (.element hne.symm) hnew hx hremove,
        sparesTarget_of_isBeside (.element hne) hnew hremove hx⟩
  | leaves old new hpair =>
    rw [edits_of_isLeafPair hpair]
    split <;> simp

/-- The part that an edit replaces is left alone by all others. -/
theorem spares_of_edits_eq {old new part value : Value} (hold : old.WellFormed)
    (hnew : new.WellFormed) {p : Position} (hp : old.at? p = some part)
    {before after : List Operation}
    (h : edits keep old new = before ++ .replace p.pointer value :: after) :
    ∀ op ∈ before ++ after, op.Spares p := by
  have hsymm : ∀ {x y : Operation}, Apart old x y → Apart old y x := And.symm
  have hapart : (edits keep old new).Pairwise (Apart old) := pairwise_apart_edits hold hnew
  rw [h, List.pairwise_middle hsymm, List.pairwise_cons] at hapart
  intro op hop
  obtain ⟨q, part, hq, hpart, hspares⟩ := (hapart.1 op hop).2 p.pointer value rfl
  obtain rfl := Position.eq_of_pointer_eq hp hpart hq
  exact hspares

end ReconcileTrigger.Json
