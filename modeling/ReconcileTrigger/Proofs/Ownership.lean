import Mathlib.Data.List.Basic
import ReconcileTrigger.Ownership
import ReconcileTrigger.Proofs.ApiVersion

/-!
The search for an owner. It ends at the first reference of the tracked kind that either names the
tracked group, and then is the owner, or names no group at all, and then makes the search fail. No
other reference plays a part. A kind that the catalog lacks leaves nothing to search for, and both
failures count as no match.
-/

namespace ReconcileTrigger

theorem OwnerReference.policy_of_group_eq_error {r : OwnerReference} {e : Failure}
    (h : r.group = .error e) : e.policy = .failClosed := by
  unfold group at h
  split at h
  · contradiction
  · obtain rfl := Except.error.inj h
    rfl

namespace Ownership

variable {w : Ownership} {name : String} {catalog : Catalog}

theorem ofKind_eq_error_iff {e : Failure} :
    ofKind name catalog = .error e ↔ catalog.find? name = none ∧ e = .unknownKind name := by
  rw [ofKind, Catalog.lookup]
  cases catalog.find? name with
  | none =>
    constructor
    · intro h
      exact ⟨rfl, (Except.error.inj h).symm⟩
    · rintro ⟨_, rfl⟩
      rfl
  | some k => exact iff_of_false nofun nofun

theorem ofKind_eq_ok {k : Kind} (h : catalog.find? name = some k) :
    ofKind name catalog = .ok ⟨name, k.apiGroup⟩ := by
  rw [ofKind, Catalog.lookup, h]
  rfl

/-- The reference names the owner: it is of the tracked kind and group. -/
structure Matches (w : Ownership) (r : OwnerReference) : Prop where
  kind : r.kind = w.kind
  not_malformed : ¬ r.Malformed
  group : r.segmentGroup = w.apiGroup

/-- The search goes on behind the reference: one of the tracked kind names another group. -/
def Passes (w : Ownership) (r : OwnerReference) : Prop :=
  r.kind = w.kind → ¬ r.Malformed ∧ r.segmentGroup ≠ w.apiGroup

instance (w : Ownership) (r : OwnerReference) : Decidable (w.Passes r) :=
  inferInstanceAs (Decidable (_ → _))

/-- A reference at which the search ends is of the tracked kind and malformed, or it matches. -/
theorem not_passes_iff {r : OwnerReference} :
    ¬ w.Passes r ↔ (r.kind = w.kind ∧ r.Malformed) ∨ w.Matches r := by
  unfold Passes
  rw [Classical.not_imp, not_and_or, not_not, not_not]
  constructor
  · rintro ⟨hkind, hmalformed | hgroup⟩
    · exact .inl ⟨hkind, hmalformed⟩
    · by_cases hmalformed : r.Malformed
      · exact .inl ⟨hkind, hmalformed⟩
      · exact .inr ⟨hkind, hmalformed, hgroup⟩
  · rintro (⟨hkind, hmalformed⟩ | hmatches)
    · exact ⟨hkind, .inl hmalformed⟩
    · exact ⟨hmatches.kind, .inr hmatches.group⟩

/-- The search ends at the first reference that does not pass, and is decided there. -/
theorem result_search (w : Ownership) (title : String) (references : List OwnerReference) :
    (w.search title references).result =
      match references.find? fun r => !decide (w.Passes r) with
      | some r => r.group.map fun _ => some r
      | none => .ok none := by
  induction references with
  | nil => rfl
  | cons r rest ih =>
    by_cases hpasses : w.Passes r
    · have hskip : (w.search title (r :: rest)).result = (w.search title rest).result := by
        rw [search]
        split
        · rename_i hkind
          obtain ⟨hvalid, hgroup⟩ := hpasses hkind
          rw [OwnerReference.group_eq_ok_iff.2 ⟨hvalid, rfl⟩]
          simp only [if_neg hgroup]
          rfl
        · rfl
      rw [hskip, ih, List.find?_cons_of_neg (by simpa using hpasses)]
    · rw [List.find?_cons_of_pos (by simpa using hpasses)]
      rcases not_passes_iff.1 hpasses with ⟨hkind, hmalformed⟩ | hmatches
      · have hgroup := OwnerReference.group_eq_error_iff.2 ⟨hmalformed, rfl⟩
        rw [search, if_pos hkind]
        simp only [hgroup]
        rfl
      · have hgroup := OwnerReference.group_eq_ok_iff.2 ⟨hmatches.not_malformed, hmatches.group⟩
        rw [search, if_pos hmatches.kind]
        simp only [hgroup, if_true]
        rfl

section Search

variable {title : String} {references : List OwnerReference}

/-- The first reference that does not pass, with the ones in front of it. -/
private theorem find?_not_passes_eq_some_iff {r : OwnerReference} :
    (references.find? fun r => !decide (w.Passes r)) = some r ↔
      ¬ w.Passes r ∧ ∃ before after, references = before ++ r :: after ∧
        ∀ s ∈ before, w.Passes s := by
  rw [List.find?_eq_some_iff_append]
  simp

theorem search_eq_some_iff {r : OwnerReference} :
    (w.search title references).result = .ok (some r) ↔
      ∃ before after, references = before ++ r :: after ∧ w.Matches r ∧
        ∀ s ∈ before, w.Passes s := by
  rw [result_search]
  constructor
  · intro h
    split at h
    · rename_i found hfound
      obtain ⟨hends, before, after, heq, hbefore⟩ := find?_not_passes_eq_some_iff.1 hfound
      rcases not_passes_iff.1 hends with ⟨_, hmalformed⟩ | hmatches
      · rw [OwnerReference.group_eq_error_iff.2 ⟨hmalformed, rfl⟩] at h
        contradiction
      · rw [OwnerReference.group_eq_ok_iff.2 ⟨hmatches.not_malformed, rfl⟩] at h
        obtain rfl := Option.some.inj (Except.ok.inj h)
        exact ⟨before, after, heq, hmatches, hbefore⟩
    · cases h
  · rintro ⟨before, after, heq, hmatches, hbefore⟩
    have hends : ¬ w.Passes r := not_passes_iff.2 (.inr hmatches)
    rw [find?_not_passes_eq_some_iff.2 ⟨hends, before, after, heq, hbefore⟩]
    simp only [OwnerReference.group_eq_ok_iff.2 ⟨hmatches.not_malformed, rfl⟩]
    rfl

theorem search_eq_error_iff {e : Failure} :
    (w.search title references).result = .error e ↔
      ∃ before r after, references = before ++ r :: after ∧ (r.kind = w.kind ∧ r.Malformed) ∧
        e = .invalidApiVersion r.apiVersion r.identity ∧ ∀ s ∈ before, w.Passes s := by
  rw [result_search]
  constructor
  · intro h
    split at h
    · rename_i found hfound
      obtain ⟨hends, before, after, heq, hbefore⟩ := find?_not_passes_eq_some_iff.1 hfound
      rcases not_passes_iff.1 hends with hmalformed | hmatches
      · rw [OwnerReference.group_eq_error_iff.2 ⟨hmalformed.2, rfl⟩] at h
        exact ⟨before, found, after, heq, hmalformed, (Except.error.inj h).symm, hbefore⟩
      · rw [OwnerReference.group_eq_ok_iff.2 ⟨hmatches.not_malformed, rfl⟩] at h
        contradiction
    · contradiction
  · rintro ⟨before, r, after, heq, hmalformed, rfl, hbefore⟩
    have hends : ¬ w.Passes r := not_passes_iff.2 (.inl hmalformed)
    rw [find?_not_passes_eq_some_iff.2 ⟨hends, before, after, heq, hbefore⟩]
    simp only [OwnerReference.group_eq_error_iff.2 ⟨hmalformed.2, rfl⟩]
    rfl

theorem search_eq_none_iff :
    (w.search title references).result = .ok none ↔ ∀ r ∈ references, w.Passes r := by
  have hnone : (references.find? fun r => !decide (w.Passes r)) = none ↔
      ∀ r ∈ references, w.Passes r := by
    rw [List.find?_eq_none]
    simp
  rw [result_search, ← hnone]
  split
  · rename_i r hfound
    rw [hfound]
    cases r.group <;> exact iff_of_false nofun nofun
  · rename_i hfound
    exact iff_of_true rfl hfound

/-- The result depends on the references of the tracked kind only, and not on the title. -/
theorem result_search_congr {title' : String} {references' : List OwnerReference}
    (h : references'.filter (·.kind = w.kind) = references.filter (·.kind = w.kind)) :
    (w.search title' references').result = (w.search title references).result := by
  have hfilter : ∀ references : List OwnerReference,
      ((references.filter (·.kind = w.kind)).find? fun r => !decide (w.Passes r)) =
        references.find? fun r => !decide (w.Passes r) := by
    intro references
    rw [List.find?_filter]
    congr 1
    funext r
    by_cases hkind : r.kind = w.kind
    · simp [hkind]
    · simp [hkind, Passes]
  rw [result_search, result_search, ← hfilter references', h, hfilter]

end Search

/-- A search that fails has met a reference of the tracked kind that names no API group. -/
theorem exists_of_owner_eq_error {o : Object} {e : Failure} (h : (w.owner o).result = .error e) :
    ∃ r ∈ o.metadata.ownerReferences, r.kind = w.kind ∧ r.group = .error e := by
  obtain ⟨before, r, after, heq, ⟨hkind, hmalformed⟩, he, _⟩ := search_eq_error_iff.1 h
  refine ⟨r, ?_, hkind, OwnerReference.group_eq_error_iff.2 ⟨hmalformed, he⟩⟩
  rw [heq]
  exact List.mem_append_right _ (List.mem_cons_self ..)

theorem policy_of_owner_eq_error {o : Object} {e : Failure} (h : (w.owner o).result = .error e) :
    e.policy = .failClosed := by
  obtain ⟨r, _, _, hgroup⟩ := exists_of_owner_eq_error h
  exact OwnerReference.policy_of_group_eq_error hgroup

/-- An object counts as owned iff the search has found an owner. -/
theorem owns_iff {o : Object} :
    (w.owns o).result = true ↔ ∃ r, (w.owner o).result = .ok (some r) := by
  rw [owns, Logged.result_bind]
  cases (w.owner o).result with
  | error e => exact iff_of_false nofun nofun
  | ok found => cases found <;> simp

/-- No group has a slash in it, so nothing is owned by a kind whose group has one. -/
theorem not_owns_of_slash_mem {o : Object} (h : '/' ∈ w.apiGroup.toList) :
    (w.owns o).result = false := by
  rw [← Bool.not_eq_true, owns_iff]
  rintro ⟨r, hr⟩
  obtain ⟨_, _, _, hmatches, _⟩ := search_eq_some_iff.1 hr
  exact r.slash_notMem_segmentGroup (hmatches.group ▸ h)

/-- The owner is the first reference that matches, and none before it that is of the tracked kind
may be malformed. The search fails at the first malformed reference of the tracked kind, and none
before it may match. Otherwise there is no owner. References of other kinds play no part. -/
theorem owner_is_first_match (w : Ownership) (o : Object) :
    (∀ r, (w.owner o).result = .ok (some r) ↔
      ∃ before after, o.metadata.ownerReferences = before ++ r :: after ∧ w.Matches r ∧
        ∀ s ∈ before, w.Passes s) ∧
    (∀ e, (w.owner o).result = .error e ↔
      ∃ before r after, o.metadata.ownerReferences = before ++ r :: after ∧
        (r.kind = w.kind ∧ r.Malformed) ∧
        e = .invalidApiVersion r.apiVersion (r.kind ++ "/" ++ r.name) ∧
        ∀ s ∈ before, w.Passes s) ∧
    ((w.owner o).result = .ok none ↔ ∀ r ∈ o.metadata.ownerReferences, w.Passes r) ∧
    (∀ o' : Object, o'.metadata.ownerReferences.filter (·.kind = w.kind) =
        o.metadata.ownerReferences.filter (·.kind = w.kind) →
      (w.owner o').result = (w.owner o).result) ∧
    ((w.owns o).result = true ↔ ∃ r, (w.owner o).result = .ok (some r)) ∧
    ('/' ∈ w.apiGroup.toList → (w.owns o).result = false) := by
  exact ⟨fun r => search_eq_some_iff, fun e => search_eq_error_iff, search_eq_none_iff,
    fun o' => result_search_congr, owns_iff, not_owns_of_slash_mem⟩

/-- A secret that a cluster of another group claims too. -/
def claimedSecret : Object where
  apiVersion := "v1"
  kind := "Secret"
  metadata :=
    { ownerReferences :=
        [⟨"", "Namespace", "rook-ceph", "u0", none⟩,
          ⟨"other.example.com/v1", "CephCluster", "impostor", "u1", none⟩,
          ⟨"ceph.rook.io/v1", "CephCluster", "rook-ceph", "u2", some true⟩,
          ⟨"a/b/c", "CephCluster", "x", "u3", none⟩] }

/-- The malformed reference in front is of another kind, the one behind the owner is not reached.
Without the owner it makes the search fail. -/
theorem owner_is_first_match_claimed :
    (owner ⟨"CephCluster", "ceph.rook.io"⟩ claimedSecret).result =
      .ok (some ⟨"ceph.rook.io/v1", "CephCluster", "rook-ceph", "u2", some true⟩) ∧
    (owner ⟨"CephCluster", "example.com"⟩ claimedSecret).result =
      .error (.invalidApiVersion "a/b/c" "CephCluster/x") ∧
    (owner ⟨"CephCluster", "ceph.rook.io"⟩
        (claimedSecret.withOwner ⟨"//", "Pod", "p", "", none⟩)).result =
      (owner ⟨"CephCluster", "ceph.rook.io"⟩ claimedSecret).result ∧
    (owns ⟨"CephCluster", "ceph.rook.io/v1"⟩ claimedSecret).result = false := by
  obtain ⟨hfound, _, _, hothers, _⟩ :=
    owner_is_first_match ⟨"CephCluster", "ceph.rook.io"⟩ claimedSecret
  obtain ⟨_, hfailed, _⟩ := owner_is_first_match ⟨"CephCluster", "example.com"⟩ claimedSecret
  obtain ⟨_, _, _, _, _, hslash⟩ :=
    owner_is_first_match ⟨"CephCluster", "ceph.rook.io/v1"⟩ claimedSecret
  refine ⟨(hfound _).2 ?_, (hfailed _).2 ?_, hothers _ rfl, hslash (by decide +kernel)⟩
  · exact ⟨claimedSecret.metadata.ownerReferences.take 2, _, rfl,
      ⟨rfl, by decide +kernel, by decide +kernel⟩, by decide +kernel⟩
  · exact ⟨claimedSecret.metadata.ownerReferences.take 3, _, _, rfl,
      ⟨rfl, by decide +kernel⟩, by decide +kernel, by decide +kernel⟩

end Ownership

end ReconcileTrigger
