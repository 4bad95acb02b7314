import Mathlib.Data.List.Basic
import ReconcileTrigger.Json.Pointer
import ReconcileTrigger.Proofs.Json.Parts

/-!
Positions in documents: the keys and indices on the way to a part. Every position has a pointer,
and the pointer leads back to the part at the position, whatever characters the keys have.
-/

namespace ReconcileTrigger.Json

inductive Step
  | member (key : String)
  | element (index : Nat)
  deriving DecidableEq

abbrev Position := List Step

namespace Pointer

theorem replaceTilde_cons_of_ne {c : Char} (h : c ≠ '~') (digit replacement : Char)
    (rest : List Char) :
    replaceTilde digit replacement (c :: rest) = c :: replaceTilde digit replacement rest := by
  cases rest <;> simp [replaceTilde, h]

/-- Putting the slashes back leaves a key with its tildes still escaped. -/
private theorem replaceTilde_escape (key : List Char) :
    replaceTilde '1' '/' (escape key) =
      key.flatMap fun c => if c = '~' then ['~', '0'] else [c] := by
  induction key with
  | nil => rfl
  | cons c rest ih =>
    rw [escape, List.flatMap_cons, List.flatMap_cons, ← escape, ← ih]
    by_cases htilde : c = '~'
    · subst htilde
      simp [escapeChar, replaceTilde, replaceTilde_cons_of_ne]
    · by_cases hslash : c = '/'
      · subst hslash
        simp [escapeChar, replaceTilde]
      · simp [escapeChar, htilde, hslash, replaceTilde_cons_of_ne htilde]

@[simp] theorem unescape_escape (key : List Char) : unescape (escape key) = key := by
  rw [unescape, replaceTilde_escape]
  induction key with
  | nil => rfl
  | cons c rest ih =>
    rw [List.flatMap_cons]
    by_cases htilde : c = '~'
    · subst htilde
      simp [replaceTilde, ih]
    · simp [htilde, replaceTilde_cons_of_ne htilde, ih]

theorem replaceTilde_of_notMem {segment : List Char} (h : '~' ∉ segment)
    (digit replacement : Char) : replaceTilde digit replacement segment = segment := by
  induction segment with
  | nil => rfl
  | cons c rest ih =>
    obtain ⟨hc, hrest⟩ := not_or.1 (mt List.mem_cons.2 h)
    rw [replaceTilde_cons_of_ne (Ne.symm hc), ih hrest]

theorem unescape_of_notMem {segment : List Char} (h : '~' ∉ segment) :
    unescape segment = segment := by
  rw [unescape, replaceTilde_of_notMem h, replaceTilde_of_notMem h]

theorem slash_notMem_escape (key : List Char) : '/' ∉ escape key := by
  intro hmem
  obtain ⟨c, _, hc⟩ := List.mem_flatMap.1 hmem
  unfold escapeChar at hc
  split at hc
  · simp at hc
  · split at hc
    · simp at hc
    · rename_i hslash
      exact hslash (List.mem_singleton.1 hc).symm

theorem notMem_toDigits {c : Char} (h : c.isDigit = false) (n : Nat) :
    c ∉ Nat.toDigits 10 n := by
  intro hmem
  have hdigit := Nat.isDigit_of_mem_toDigits (by decide) (by decide) hmem
  rw [h] at hdigit
  exact Bool.false_ne_true hdigit

theorem head?_toDigits_ne_zero {n : Nat} (h : 0 < n) :
    (Nat.toDigits 10 n).head? ≠ some '0' := by
  induction n using Nat.strongRecOn with
  | ind n ih =>
    by_cases hlt : n < 10
    · rw [Nat.toDigits_of_lt_base hlt]
      intro hzero
      have hchar : n.digitChar = '0' := by simpa using hzero
      have hval := congrArg Char.toNat hchar
      rw [Nat.toNat_digitChar_of_lt_ten hlt] at hval
      have hzero : '0'.toNat = 48 := rfl
      omega
    · have hhead := ih (n / 10) (by omega) (by omega)
      rw [Nat.toDigits_of_base_le (by decide) (by omega)]
      rwa [List.head?_append_of_ne_nil _ Nat.toDigits_ne_nil]

/-- The digits of an index are read as the index. -/
theorem index?_toDigits (n : Nat) : index? (Nat.toDigits 10 n) = some n := by
  have hne : Nat.toDigits 10 n ≠ [] := Nat.toDigits_ne_nil
  have hall : (Nat.toDigits 10 n).all Char.isDigit = true := by
    apply List.all_eq_true.2
    intro c hc
    exact Nat.isDigit_of_mem_toDigits (by decide) (by decide) hc
  have hplain : ¬ ((Nat.toDigits 10 n).head? = some '0' ∧ (Nat.toDigits 10 n).length ≠ 1) := by
    rintro ⟨hhead, hlength⟩
    by_cases hzero : n = 0
    · subst hzero
      exact hlength rfl
    · exact head?_toDigits_ne_zero (Nat.pos_of_ne_zero hzero) hhead
  unfold index?
  rw [if_neg (by simp [hne, hall]), if_neg (by simpa using hplain), Nat.ofDigitChars_ten_toDigits]

def segments? : Pointer → Option (List (List Char))
  | [] => some []
  | '/' :: rest => some ((Text.split '/' rest).map unescape)
  | _ => none

theorem eq_nil_or_slash_of_segments? {path : Pointer} {keys : List (List Char)}
    (h : path.segments? = some keys) : path = [] ∨ ∃ rest, path = '/' :: rest := by
  unfold segments? at h
  split at h
  · exact .inl rfl
  · exact .inr ⟨_, rfl⟩
  · contradiction

/-- The first key of a pointer is its top-level field, whatever follows the key. -/
theorem topLevelField_escape (key : String) {below : Pointer}
    (h : below = [] ∨ ∃ rest, below = '/' :: rest) :
    topLevelField ('/' :: escape key.toList ++ below) = key := by
  have hplain : ∀ c ∈ escape key.toList, decide (c ≠ '/') = true := by
    intro c hc
    have hne : c ≠ '/' := by
      rintro rfl
      exact slash_notMem_escape key.toList hc
    simpa using hne
  have htake : (escape key.toList ++ below).takeWhile (· ≠ '/') = escape key.toList := by
    rw [List.takeWhile_append_of_pos hplain]
    rcases h with rfl | ⟨rest, rfl⟩ <;> simp
  change String.ofList (unescape ((escape key.toList ++ below).takeWhile _)) = key
  rw [htake, unescape_escape, String.ofList_toList]

end Pointer

theorem Value.pointed?_eq (v : Value) (path : Pointer) :
    v.pointed? path = path.segments?.bind fun keys => v.descend? keys := by
  unfold Value.pointed? Pointer.segments?
  split
  · rfl
  · rfl
  · rename_i hnil hslash
    split
    · exact absurd rfl hnil
    · rename_i rest
      exact absurd rfl (hslash rest)
    · rfl

namespace Step

def segment : Step → List Char
  | .member key => key.toList
  | .element index => Nat.toDigits 10 index

def pointer : Step → Pointer
  | .member key => Pointer.member [] key
  | .element index => Pointer.element [] index

def child? : Step → Value → Option Value
  | .member key, .object members => members.lookup key
  | .element index, .array elements => elements[index]?
  | _, _ => none

theorem exists_pointer_eq (step : Step) :
    ∃ segment : List Char, step.pointer = '/' :: segment ∧ '/' ∉ segment ∧
      Pointer.unescape segment = step.segment := by
  cases step with
  | member key =>
    exact ⟨_, rfl, Pointer.slash_notMem_escape _, Pointer.unescape_escape _⟩
  | element index =>
    refine ⟨_, rfl, Pointer.notMem_toDigits (by decide) index, ?_⟩
    exact Pointer.unescape_of_notMem (Pointer.notMem_toDigits (by decide) index)

/-- A step in front of a pointer is one segment more. -/
theorem segments?_append (step : Step) {path : Pointer} {keys : List (List Char)}
    (h : path.segments? = some keys) :
    (step.pointer ++ path).segments? = some (step.segment :: keys) := by
  obtain ⟨segment, hpointer, hslash, hunescape⟩ := step.exists_pointer_eq
  rw [hpointer]
  rcases Pointer.eq_nil_or_slash_of_segments? h with rfl | ⟨rest, rfl⟩
  · obtain rfl : [] = keys := Option.some.inj h
    rw [List.append_nil, Pointer.segments?, Text.split_of_notMem hslash, List.map_singleton,
      hunescape]
  · obtain rfl : (Text.split '/' rest).map Pointer.unescape = keys := Option.some.inj h
    rw [List.cons_append, Pointer.segments?, Text.split_append hslash, List.map_cons, hunescape]

theorem descend?_segment_cons {step : Step} {v child : Value} (h : step.child? v = some child)
    (keys : List (List Char)) : v.descend? (step.segment :: keys) = child.descend? keys := by
  cases step with
  | member key =>
    cases v with
    | object members =>
      have hlookup : members.lookup key = some child := h
      simp [segment, Value.descend?, hlookup]
    | _ => contradiction
  | element index =>
    cases v with
    | array elements =>
      have hget : elements[index]? = some child := h
      simp [segment, Value.descend?, Pointer.index?_toDigits, hget]
    | _ => contradiction

/-- A pointer below a step is followed from the part that the step leads to. -/
theorem pointed?_append {step : Step} {v child : Value} (h : step.child? v = some child)
    {path : Pointer} {keys : List (List Char)} (hpath : path.segments? = some keys) :
    v.pointed? (step.pointer ++ path) = child.pointed? path := by
  rw [Value.pointed?_eq, Value.pointed?_eq, step.segments?_append hpath, hpath]
  exact descend?_segment_cons h keys

/-- The top-level field of a pointer that starts with a key is the key. -/
theorem topLevelField_member_append (key : String) {path : Pointer} {keys : List (List Char)}
    (h : path.segments? = some keys) :
    Pointer.topLevelField ((Step.member key).pointer ++ path) = key :=
  Pointer.topLevelField_escape key (Pointer.eq_nil_or_slash_of_segments? h)

/-- Steps into one container are told apart by the keys that pointers write for them. -/
theorem eq_of_segment_eq {step other : Step} {v a b : Value} (ha : step.child? v = some a)
    (hb : other.child? v = some b) (h : step.segment = other.segment) : step = other := by
  cases v with
  | object members =>
    cases step with
    | member key =>
      cases other with
      | member key' => exact congrArg Step.member (String.toList_injective h)
      | element => contradiction
    | element => contradiction
  | array elements =>
    cases step with
    | member => contradiction
    | element index =>
      cases other with
      | member => contradiction
      | element index' =>
        have hindex := congrArg Pointer.index? h
        simp only [segment, Pointer.index?_toDigits] at hindex
        exact congrArg Step.element (Option.some.inj hindex)
  | _ => cases step <;> contradiction

end Step

namespace Position

def pointer (p : Position) : Pointer :=
  p.flatMap Step.pointer

theorem segments?_pointer (p : Position) : p.pointer.segments? = some (p.map Step.segment) := by
  induction p with
  | nil => rfl
  | cons step rest ih => exact step.segments?_append ih

end Position

def Value.at? : Position → Value → Option Value
  | [], v => some v
  | step :: rest, v => (step.child? v).bind (Value.at? rest)

theorem Value.at?_cons_eq_some_iff {step : Step} {p : Position} {v part : Value} :
    v.at? (step :: p) = some part ↔ ∃ child, step.child? v = some child ∧ child.at? p = some part :=
  Option.bind_eq_some_iff

theorem Value.WellFormed.child? {v child : Value} (h : v.WellFormed) {step : Step}
    (hchild : step.child? v = some child) : child.WellFormed := by
  cases step with
  | member key =>
    cases v with
    | object members => exact h.lookup hchild
    | _ => contradiction
  | element index =>
    cases v with
    | array elements => exact h.getElem? hchild
    | _ => contradiction

/-- The pointer of a position leads to the part at the position. -/
theorem Value.pointed?_pointer {p : Position} {v part : Value} (h : v.at? p = some part) :
    v.pointed? p.pointer = some part := by
  induction p generalizing v with
  | nil => exact h
  | cons step rest ih =>
    obtain ⟨child, hchild, hrest⟩ := at?_cons_eq_some_iff.1 h
    exact (Step.pointed?_append hchild (Position.segments?_pointer rest)).trans (ih hrest)

/-- No two positions of a document have the same pointer. -/
theorem Position.eq_of_pointer_eq {p q : Position} {v a b : Value} (hp : v.at? p = some a)
    (hq : v.at? q = some b) (h : p.pointer = q.pointer) : p = q := by
  have hsegments : p.map Step.segment = q.map Step.segment := by
    rw [← Option.some_inj, ← p.segments?_pointer, ← q.segments?_pointer, h]
  clear h
  induction p generalizing q v with
  | nil => exact (List.map_eq_nil_iff.1 hsegments.symm).symm
  | cons step rest ih =>
    cases q with
    | nil => contradiction
    | cons other rest' =>
      obtain ⟨child, hchild, hp⟩ := Value.at?_cons_eq_some_iff.1 hp
      obtain ⟨child', hchild', hq⟩ := Value.at?_cons_eq_some_iff.1 hq
      obtain ⟨hsegment, hrest⟩ := List.cons.inj hsegments
      obtain rfl := Step.eq_of_segment_eq hchild hchild' hsegment
      obtain rfl : child = child' := Option.some.inj (hchild.symm.trans hchild')
      rw [ih hp hq hrest]

end ReconcileTrigger.Json
