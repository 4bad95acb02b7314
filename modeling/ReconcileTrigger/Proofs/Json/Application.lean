import Mathlib.Data.List.Basic
import ReconcileTrigger.Proofs.Json.Edits

/-!
Applying the operations of RFC 6902 to a document. The target of an operation must exist, except
that an added member may be new, and that an added element may come anywhere up to the end of its
array. An operation below a step changes the part that the step leads to, and nothing else.
-/

namespace ReconcileTrigger.Json

/-- The index at which a segment adds an element: that of an element, or the end, which a dash
names too. -/
def Pointer.insertionIndex? (segment : List Char) (length : Nat) : Option Nat :=
  if segment = ['-'] then some length
  else (Pointer.index? segment).bind fun i => if i ≤ length then some i else none

theorem Pointer.insertionIndex?_toDigits (index length : Nat) :
    insertionIndex? (Nat.toDigits 10 index) length =
      if index ≤ length then some index else none := by
  have hdash : Nat.toDigits 10 index ≠ ['-'] := by
    intro heq
    refine notMem_toDigits (c := '-') (by decide) index ?_
    rw [heq]
    exact List.mem_singleton_self _
  rw [insertionIndex?, if_neg hdash, index?_toDigits, Option.bind_some]

namespace Value

def changeChild? (segment : List Char) (change : Value → Option Value) : Value → Option Value
  | .object members => do
    let child ← members.lookup (String.ofList segment)
    return .object (insertEntry (String.ofList segment) (← change child) members)
  | .array elements => do
    let i ← Pointer.index? segment
    let child ← elements[i]?
    return .array (elements.set i (← change child))
  | _ => none

def addChild? (segment : List Char) (part : Value) : Value → Option Value
  | .object members => some (.object (insertEntry (String.ofList segment) part members))
  | .array elements =>
    (Pointer.insertionIndex? segment elements.length).map fun i =>
      .array (elements.insertIdx i part)
  | _ => none

def removeChild? (segment : List Char) : Value → Option Value
  | .object members =>
    (members.lookup (String.ofList segment)).map fun _ =>
      .object (eraseEntry (String.ofList segment) members)
  | .array elements => do
    let i ← Pointer.index? segment
    if i < elements.length then some (.array (elements.eraseIdx i)) else none
  | _ => none

end Value

namespace Operation

def applyAtRoot? : Operation → Option Value
  | .add _ value => some value
  | .remove _ => none
  | .replace _ value => some value

def applyToChild? : Operation → List Char → Value → Option Value
  | .add _ value, segment, v => Value.addChild? segment value v
  | .remove _, segment, v => v.removeChild? segment
  | .replace _ value, segment, v => v.changeChild? segment fun _ => some value

def applyAt? (op : Operation) : List (List Char) → Value → Option Value
  | [], _ => op.applyAtRoot?
  | [segment], v => op.applyToChild? segment v
  | segment :: next :: rest, v => v.changeChild? segment (op.applyAt? (next :: rest))

def applyTo? (op : Operation) (v : Value) : Option Value :=
  op.path.segments?.bind fun segments => op.applyAt? segments v

/-- The document after all operations in turn, each of which must apply. -/
def applyAll? (ops : List Operation) (v : Value) : Option Value :=
  ops.foldlM (fun v op => op.applyTo? v) v

theorem applyAll?_append (ops rest : List Operation) (v : Value) :
    applyAll? (ops ++ rest) v = (applyAll? ops v).bind fun w => applyAll? rest w :=
  List.foldlM_append

theorem applyAll?_cons (op : Operation) (rest : List Operation) (v : Value) :
    applyAll? (op :: rest) v = (op.applyTo? v).bind fun w => applyAll? rest w :=
  List.foldlM_cons

theorem applyAll?_singleton (op : Operation) (v : Value) : applyAll? [op] v = op.applyTo? v := by
  rw [applyAll?_cons]
  cases op.applyTo? v <;> rfl

theorem applyAt?_under (op : Operation) (above : Pointer) (segments : List (List Char))
    (v : Value) : (op.under above).applyAt? segments v = op.applyAt? segments v := by
  induction segments generalizing v with
  | nil => cases op <;> rfl
  | cons segment rest ih =>
    cases rest with
    | nil => cases op <;> rfl
    | cons next rest =>
      rw [applyAt?, applyAt?]
      congr 1
      funext w
      exact ih w

end Operation

/-- The members of an object are in the order of their keys, whatever is inside them. -/
def Value.HasSortedKeys : Value → Prop
  | .object members => SortedKeys members
  | _ => True

namespace Step

def put : Step → Value → Value → Value
  | .member key, part, .object members => .object (insertEntry key part members)
  | .element index, part, .array elements => .array (elements.set index part)
  | _, _, v => v

theorem changeChild?_segment {step : Step} {v child : Value} (h : step.child? v = some child)
    (change : Value → Option Value) :
    v.changeChild? step.segment change = (change child).map fun part => step.put part v := by
  cases step with
  | member key =>
    cases v with
    | object members =>
      have hlookup : members.lookup key = some child := h
      simp only [segment, Value.changeChild?, String.ofList_toList]
      cases hchange : change child with
      | none => simp [hlookup, hchange]
      | some part => simp [hlookup, hchange, put]
    | _ => contradiction
  | element index =>
    cases v with
    | array elements =>
      have hget : elements[index]? = some child := h
      simp only [segment, Value.changeChild?, Pointer.index?_toDigits]
      cases hchange : change child with
      | none => simp [hget, hchange]
      | some part => simp [hget, hchange, put]
    | _ => contradiction

theorem child?_put {step : Step} {v child : Value} (h : step.child? v = some child)
    (part : Value) : step.child? (step.put part v) = some part := by
  cases step with
  | member key =>
    cases v with
    | object members => exact lookup_insertEntry_self key part members
    | _ => contradiction
  | element index =>
    cases v with
    | array elements =>
      have hlt := (List.getElem?_eq_some_iff.1 h).1
      exact List.getElem?_set_self hlt
    | _ => contradiction

/-- Putting back the part that is there changes nothing. -/
theorem put_self {step : Step} {v child : Value} (hv : v.HasSortedKeys)
    (h : step.child? v = some child) : step.put child v = v := by
  cases step with
  | member key =>
    cases v with
    | object members =>
      rw [put, insertEntry_eq_self hv h]
    | _ => contradiction
  | element index =>
    cases v with
    | array elements =>
      obtain ⟨hlt, rfl⟩ := List.getElem?_eq_some_iff.1 h
      rw [put, List.set_getElem_self]
    | _ => contradiction

theorem hasSortedKeys_put {step : Step} {v : Value} (part : Value) (hv : v.HasSortedKeys) :
    (step.put part v).HasSortedKeys := by
  cases step with
  | member key =>
    cases v with
    | object members => exact sortedKeys_insertEntry hv
    | _ => exact hv
  | element index =>
    cases v with
    | array elements => trivial
    | _ => exact hv

/-- Of two parts put in one place the later stays. -/
theorem put_put {step : Step} {v : Value} (hv : v.HasSortedKeys) (earlier later : Value) :
    step.put later (step.put earlier v) = step.put later v := by
  cases step with
  | member key =>
    cases v with
    | object members =>
      simp only [put, insertEntry_insertEntry earlier later hv]
    | _ => rfl
  | element index =>
    cases v with
    | array elements => simp only [put, List.set_set]
    | _ => rfl

end Step

namespace Operation

theorem applyTo?_eq {op : Operation} {segments : List (List Char)}
    (h : op.path.segments? = some segments) (v : Value) :
    op.applyTo? v = op.applyAt? segments v := by
  rw [applyTo?, h, Option.bind_some]

theorem applyTo?_of_path_eq {op : Operation} {step : Step} (h : op.path = step.pointer)
    (v : Value) : op.applyTo? v = op.applyToChild? step.segment v := by
  have hpath : op.path.segments? = some [step.segment] := by
    rw [h, ← List.append_nil step.pointer]
    exact step.segments?_append rfl
  rw [applyTo?_eq hpath]
  rfl

/-- An operation below a step changes the part under the segment of the step. -/
theorem applyTo?_under_eq_changeChild? {op : Operation} (hop : op.IsPlaced) (step : Step)
    (v : Value) :
    (op.under step.pointer).applyTo? v = v.changeChild? step.segment op.applyTo? := by
  obtain ⟨p, hp, hroot⟩ := hop
  have hpath : op.path.segments? = some (p.map Step.segment) := hp ▸ p.segments?_pointer
  have habove : (op.under step.pointer).path.segments? =
      some (step.segment :: p.map Step.segment) := by
    rw [path_under]
    exact step.segments?_append hpath
  have hbelow : op.applyTo? = op.applyAt? (p.map Step.segment) := funext (applyTo?_eq hpath)
  rw [applyTo?_eq habove, applyAt?_under, hbelow]
  cases p with
  | nil =>
    obtain ⟨value, rfl⟩ := hroot rfl
    rfl
  | cons next rest => rfl

theorem applyTo?_under {step : Step} {v child : Value} (h : step.child? v = some child)
    {op : Operation} (hop : op.IsPlaced) :
    (op.under step.pointer).applyTo? v = (op.applyTo? child).map fun part => step.put part v := by
  rw [applyTo?_under_eq_changeChild? hop]
  exact step.changeChild?_segment h op.applyTo?

/-- Operations below a step change the part that the step leads to, one after another. -/
theorem applyAll?_map_under {step : Step} {v child : Value} (hv : v.HasSortedKeys)
    (h : step.child? v = some child) {ops : List Operation} (hops : ∀ op ∈ ops, op.IsPlaced) :
    applyAll? (ops.map (.under step.pointer)) v =
      (applyAll? ops child).map fun part => step.put part v := by
  induction ops generalizing v child with
  | nil => exact congrArg some (step.put_self hv h).symm
  | cons op rest ih =>
    rw [List.map_cons, applyAll?_cons, applyAll?_cons,
      applyTo?_under h (hops op (List.mem_cons_self ..))]
    cases op.applyTo? child with
    | none => rfl
    | some next =>
      have hrest := ih (step.hasSortedKeys_put next hv) (step.child?_put h next)
        fun op hop => hops op (List.mem_cons_of_mem _ hop)
      simp only [Option.map_some, Option.bind_some, hrest, step.put_put hv]

end Operation

end ReconcileTrigger.Json
