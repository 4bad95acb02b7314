import Mathlib.Data.List.TakeWhile
import ReconcileTrigger.Object.Basic
import ReconcileTrigger.Text.Words

/-!
API versions of owner references, segment by segment. One segment is a version of the core group,
two are a group and a version, and none of them may be empty. What is read as the group is what the
segments say, and every other text is refused.
-/

namespace ReconcileTrigger.OwnerReference

variable {r : OwnerReference}

def segments (r : OwnerReference) : List (List Char) :=
  Text.split '/' r.apiVersion.toList

/-- The API version has neither one segment nor two, or one of them is empty. -/
def Malformed (r : OwnerReference) : Prop :=
  ¬ ((r.segments.length = 1 ∨ r.segments.length = 2) ∧ ∀ segment ∈ r.segments, segment ≠ [])

instance (r : OwnerReference) : Decidable r.Malformed :=
  inferInstanceAs (Decidable (¬ _))

def segmentGroup (r : OwnerReference) : String :=
  match r.segments with
  | [group, _] => String.ofList group
  | _ => ""

/-- A text has one segment, or two, or a third one after the second slash. -/
private theorem segments_cases (cs : List Char) :
    ('/' ∉ cs ∧ Text.split '/' cs = [cs]) ∨
    (∃ group version, cs = group ++ '/' :: version ∧ '/' ∉ group ∧ '/' ∉ version ∧
      Text.split '/' cs = [group, version]) ∨
    (∃ group rest, cs = group ++ '/' :: rest ∧ '/' ∉ group ∧ '/' ∈ rest ∧
      2 < (Text.split '/' cs).length) := by
  by_cases hslash : '/' ∈ cs
  · obtain ⟨group, version, rfl, hgroup⟩ := List.eq_append_cons_of_mem hslash
    by_cases hsecond : '/' ∈ version
    · refine .inr (.inr ⟨group, version, rfl, hgroup, hsecond, ?_⟩)
      obtain ⟨second, third, rfl, hnot⟩ := List.eq_append_cons_of_mem hsecond
      have hthird := List.length_pos_iff.2 (Text.split_ne_nil '/' third)
      rw [Text.split_append hgroup, Text.split_append hnot, List.length_cons, List.length_cons]
      omega
    · refine .inr (.inl ⟨group, version, rfl, hgroup, hsecond, ?_⟩)
      rw [Text.split_append hgroup, Text.split_of_notMem hsecond]
  · exact .inl ⟨hslash, Text.split_of_notMem hslash⟩

private theorem groupOf?_of_notMem {cs : List Char} (h : '/' ∉ cs) :
    groupOf? cs = if cs = [] then none else some [] := by
  have hplain : ∀ c ∈ cs, decide (c ≠ '/') = true := by
    intro c hc
    exact decide_eq_true fun heq => h (heq ▸ hc)
  have hdrop : cs.dropWhile (· ≠ '/') = [] := List.dropWhile_eq_nil_iff.2 hplain
  have htake := List.takeWhile_append_dropWhile (p := (· ≠ '/')) (l := cs)
  rw [hdrop, List.append_nil] at htake
  rw [groupOf?, hdrop, htake]
  cases cs <;> rfl

private theorem groupOf?_append {group : List Char} (h : '/' ∉ group) (version : List Char) :
    groupOf? (group ++ '/' :: version) =
      if group = [] ∨ version = [] ∨ '/' ∈ version then none else some group := by
  have hplain : ∀ c ∈ group, decide (c ≠ '/') = true := by
    intro c hc
    exact decide_eq_true fun heq => h (heq ▸ hc)
  have htake : (group ++ '/' :: version).takeWhile (· ≠ '/') = group := by
    rw [List.takeWhile_append_of_pos hplain, List.takeWhile_cons_of_neg (by decide),
      List.append_nil]
  have hdrop : (group ++ '/' :: version).dropWhile (· ≠ '/') = '/' :: version := by
    rw [List.dropWhile_append_of_pos hplain, List.dropWhile_cons_of_neg (by decide)]
  rw [groupOf?, htake, hdrop]
  cases group with
  | nil => rfl
  | cons c rest => simp

/-- The group is what the segments name, unless they are malformed. -/
theorem group_eq (r : OwnerReference) :
    r.group = if r.Malformed then .error (.invalidApiVersion r.apiVersion r.identity)
      else .ok r.segmentGroup := by
  obtain ⟨hslash, hsplit⟩ | ⟨group, version, heq, hgroup, hversion, hsplit⟩ |
    ⟨group, rest, heq, hgroup, hrest, hlength⟩ := segments_cases r.apiVersion.toList
  · have hmalformed : r.Malformed ↔ r.apiVersion.toList = [] := by
      rw [Malformed, segments, hsplit]
      simp
    have hcore : r.segmentGroup = "" := by
      rw [segmentGroup, segments, hsplit]
    rw [OwnerReference.group, groupOf?_of_notMem hslash, hcore, if_congr hmalformed rfl rfl]
    by_cases hempty : r.apiVersion.toList = []
    · rw [if_pos hempty, if_pos hempty]
    · rw [if_neg hempty, if_neg hempty]
  · have hmalformed : r.Malformed ↔ group = [] ∨ version = [] ∨ '/' ∈ version := by
      rw [Malformed, segments, hsplit]
      simp [hversion, imp_iff_not_or]
    have hfirst : r.segmentGroup = String.ofList group := by
      rw [segmentGroup, segments, hsplit]
    rw [OwnerReference.group, heq, groupOf?_append hgroup, hfirst, if_congr hmalformed rfl rfl]
    by_cases hfault : group = [] ∨ version = [] ∨ '/' ∈ version
    · rw [if_pos hfault, if_pos hfault]
    · rw [if_neg hfault, if_neg hfault]
  · have hmalformed : r.Malformed := by
      rintro ⟨hone | htwo, _⟩
      · rw [segments] at hone
        omega
      · rw [segments] at htwo
        omega
    rw [OwnerReference.group, heq, groupOf?_append hgroup, if_pos (.inr (.inr hrest)),
      if_pos hmalformed]

theorem group_eq_ok_iff {group : String} :
    r.group = .ok group ↔ ¬ r.Malformed ∧ r.segmentGroup = group := by
  rw [group_eq]
  split
  · simp [*]
  · simp [*]

theorem group_eq_error_iff {e : Failure} :
    r.group = .error e ↔ r.Malformed ∧ e = .invalidApiVersion r.apiVersion r.identity := by
  rw [group_eq]
  split
  · simp [*, eq_comm]
  · simp [*]

/-- No group has a slash in it. -/
theorem slash_notMem_segmentGroup (r : OwnerReference) : '/' ∉ r.segmentGroup.toList := by
  unfold segmentGroup segments
  obtain ⟨_, hsplit⟩ | ⟨group, version, _, hgroup, _, hsplit⟩ | ⟨_, _, _, _, _, hlength⟩ :=
    segments_cases r.apiVersion.toList
  · rw [hsplit]
    exact List.not_mem_nil
  · rw [hsplit]
    simpa using hgroup
  · split
    · rename_i hsplit
      rw [hsplit] at hlength
      exact absurd hlength (Nat.lt_irrefl 2)
    · exact List.not_mem_nil

end ReconcileTrigger.OwnerReference
