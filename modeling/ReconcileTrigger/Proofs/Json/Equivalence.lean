import Mathlib.Data.List.Basic
import ReconcileTrigger.Equivalence
import ReconcileTrigger.Proofs.Json.Parts

/-!
Equal documents and equivalent leaves. Every document equals itself, since a number of a document
is never one that differs from itself, and equality is symmetric and transitive. Two leaves that
are equivalent have no parts.
-/

namespace ReconcileTrigger.Json

theorem Number.same_refl (n : Number) : n.same n = true := by
  cases n with
  | integer value => exact beq_self_eq_true value
  | binary value =>
    rw [Number.same, Binary64.sameValue, beq_self_eq_true, Bool.true_or]

theorem Number.same_symm {a b : Number} (h : a.same b = true) : b.same a = true := by
  cases a with
  | integer x =>
    cases b with
    | integer y =>
      obtain rfl : x = y := eq_of_beq h
      exact h
    | binary y => contradiction
  | binary x =>
    cases b with
    | integer y => contradiction
    | binary y =>
      rw [Number.same, Binary64.sameValue, Bool.or_eq_true, Bool.and_eq_true] at *
      rcases h with h | ⟨hx, hy⟩
      · obtain rfl : x = y := eq_of_beq h
        exact .inl h
      · exact .inr ⟨hy, hx⟩

theorem Number.same_trans {a b c : Number} (hab : a.same b = true) (hbc : b.same c = true) :
    a.same c = true := by
  cases b with
  | integer y =>
    cases a with
    | binary x => contradiction
    | integer x =>
      obtain rfl : x = y := eq_of_beq hab
      exact hbc
  | binary y =>
    cases a with
    | integer x => contradiction
    | binary x =>
      cases c with
      | integer z => contradiction
      | binary z =>
        rw [Number.same, Binary64.sameValue, Bool.or_eq_true, Bool.and_eq_true] at *
        rcases hab with hab | ⟨hx, hy⟩
        · obtain rfl : x = y := eq_of_beq hab
          exact hbc
        · -- the number between is a zero, so the one after it is too
          rcases hbc with hbc | ⟨_, hz⟩
          · obtain rfl : y = z := eq_of_beq hbc
            exact .inr ⟨hx, hy⟩
          · exact .inr ⟨hx, hz⟩

namespace Value

theorem same_refl (v : Value) : v.same v = true := by
  induction v using inductionOnParts with
  | object members ih =>
    rw [same]
    induction members with
    | nil => rfl
    | cons e rest ihrest =>
      obtain ⟨key, value⟩ := e
      have hvalue : value.same value = true := ih (key, value) (List.mem_cons_self ..)
      have hrest := ihrest fun e he => ih e (List.mem_cons_of_mem _ he)
      rw [sameMembers, beq_self_eq_true, hvalue, hrest]
      rfl
  | array elements ih =>
    rw [same]
    induction elements with
    | nil => rfl
    | cons value rest ihrest =>
      have hvalue := ih value (List.mem_cons_self ..)
      have hrest := ihrest fun v hv => ih v (List.mem_cons_of_mem _ hv)
      rw [sameElements, hvalue, hrest]
      rfl
  | scalar v h =>
    cases v with
    | null => rfl
    | bool value => exact beq_self_eq_true value
    | number n => exact n.same_refl
    | string s => exact beq_self_eq_true s
    | array elements => exact absurd rfl (h.not_array elements)
    | object members => exact absurd rfl (h.not_object members)

private theorem sameMembers_symm {l m : List (String × Value)}
    (hsymm : ∀ e ∈ l, ∀ b : Value, e.2.same b = true → b.same e.2 = true)
    (h : sameMembers l m = true) : sameMembers m l = true := by
  induction l generalizing m with
  | nil =>
    cases m with
    | nil => rfl
    | cons => contradiction
  | cons first rest ih =>
    cases m with
    | nil => contradiction
    | cons second rest' =>
      simp only [sameMembers, Bool.and_eq_true, beq_iff_eq] at *
      obtain ⟨⟨hkey, hvalue⟩, hrest⟩ := h
      have hfirst := hsymm first (List.mem_cons_self ..) _ hvalue
      have hlater := ih (fun e he => hsymm e (List.mem_cons_of_mem _ he)) hrest
      exact ⟨⟨hkey.symm, hfirst⟩, hlater⟩

private theorem sameElements_symm {l m : List Value}
    (hsymm : ∀ a ∈ l, ∀ b : Value, a.same b = true → b.same a = true)
    (h : sameElements l m = true) : sameElements m l = true := by
  induction l generalizing m with
  | nil =>
    cases m with
    | nil => rfl
    | cons => contradiction
  | cons first rest ih =>
    cases m with
    | nil => contradiction
    | cons second rest' =>
      simp only [sameElements, Bool.and_eq_true] at *
      have hfirst := hsymm first (List.mem_cons_self ..) _ h.1
      have hlater := ih (fun a ha => hsymm a (List.mem_cons_of_mem _ ha)) h.2
      exact ⟨hfirst, hlater⟩

theorem same_symm {a b : Value} (h : a.same b = true) : b.same a = true := by
  induction a using inductionOnParts generalizing b with
  | object members ih =>
    cases b with
    | object members' =>
      rw [same] at *
      exact sameMembers_symm (fun e he _ => ih e he) h
    | _ => contradiction
  | array elements ih =>
    cases b with
    | array elements' =>
      rw [same] at *
      exact sameElements_symm (fun v hv _ => ih v hv) h
    | _ => contradiction
  | scalar a ha =>
    cases a with
    | object members => exact absurd rfl (ha.not_object members)
    | array elements => exact absurd rfl (ha.not_array elements)
    | number x =>
      cases b with
      | number y => exact Number.same_symm h
      | _ => contradiction
    | null =>
      cases b with
      | null => rfl
      | _ => contradiction
    | bool x =>
      cases b with
      | bool y => exact beq_iff_eq.2 (eq_of_beq h).symm
      | _ => contradiction
    | string s =>
      cases b with
      | string t => exact beq_iff_eq.2 (eq_of_beq h).symm
      | _ => contradiction

private theorem sameMembers_trans {l m n : List (String × Value)}
    (htrans : ∀ e ∈ l, ∀ b c : Value, e.2.same b = true → b.same c = true → e.2.same c = true)
    (hlm : sameMembers l m = true) (hmn : sameMembers m n = true) : sameMembers l n = true := by
  induction l generalizing m n with
  | nil =>
    cases m with
    | nil => exact hmn
    | cons => contradiction
  | cons first rest ih =>
    cases m with
    | nil => contradiction
    | cons second rest' =>
      cases n with
      | nil => contradiction
      | cons third rest'' =>
        simp only [sameMembers, Bool.and_eq_true, beq_iff_eq] at *
        obtain ⟨⟨hkey, hvalue⟩, hrest⟩ := hlm
        obtain ⟨⟨hkey', hvalue'⟩, hrest'⟩ := hmn
        have hfirst := htrans first (List.mem_cons_self ..) _ _ hvalue hvalue'
        have hlater := ih (fun e he => htrans e (List.mem_cons_of_mem _ he)) hrest hrest'
        exact ⟨⟨hkey.trans hkey', hfirst⟩, hlater⟩

private theorem sameElements_trans {l m n : List Value}
    (htrans : ∀ a ∈ l, ∀ b c : Value, a.same b = true → b.same c = true → a.same c = true)
    (hlm : sameElements l m = true) (hmn : sameElements m n = true) :
    sameElements l n = true := by
  induction l generalizing m n with
  | nil =>
    cases m with
    | nil => exact hmn
    | cons => contradiction
  | cons first rest ih =>
    cases m with
    | nil => contradiction
    | cons second rest' =>
      cases n with
      | nil => contradiction
      | cons third rest'' =>
        simp only [sameElements, Bool.and_eq_true] at *
        have hfirst := htrans first (List.mem_cons_self ..) _ _ hlm.1 hmn.1
        have hlater := ih (fun a ha => htrans a (List.mem_cons_of_mem _ ha)) hlm.2 hmn.2
        exact ⟨hfirst, hlater⟩

theorem same_trans {a b c : Value} (hab : a.same b = true) (hbc : b.same c = true) :
    a.same c = true := by
  induction a using inductionOnParts generalizing b c with
  | object members ih =>
    cases b with
    | object members' =>
      cases c with
      | object members'' =>
        rw [same] at *
        exact sameMembers_trans (fun e he _ _ => ih e he) hab hbc
      | _ => contradiction
    | _ => contradiction
  | array elements ih =>
    cases b with
    | array elements' =>
      cases c with
      | array elements'' =>
        rw [same] at *
        exact sameElements_trans (fun v hv _ _ => ih v hv) hab hbc
      | _ => contradiction
    | _ => contradiction
  | scalar a h =>
    -- apart from numbers, equal scalars are identical
    cases a with
    | object members => exact absurd rfl (h.not_object members)
    | array elements => exact absurd rfl (h.not_array elements)
    | number x =>
      cases b with
      | number y =>
        cases c with
        | number z => exact Number.same_trans hab hbc
        | _ => contradiction
      | _ => contradiction
    | null =>
      cases b with
      | null => exact hbc
      | _ => contradiction
    | bool x =>
      cases b with
      | bool y =>
        obtain rfl : x = y := eq_of_beq hab
        exact hbc
      | _ => contradiction
    | string s =>
      cases b with
      | string t =>
        obtain rfl : s = t := eq_of_beq hab
        exact hbc
      | _ => contradiction

theorem equivalent_of_same {a b : Value} (h : a.same b = true) : a.equivalent b = true := by
  unfold equivalent
  rw [h, Bool.true_or]

theorem equivalent_refl (v : Value) : v.equivalent v = true :=
  equivalent_of_same v.same_refl

theorem IsLeafPair.isScalar_of_same {a b : Value} (hpair : IsLeafPair a b)
    (h : a.same b = true) : a.IsScalar ∧ b.IsScalar := by
  cases a with
  | object members =>
    cases b with
    | object members' => exact (hpair.not_objects _ _ rfl rfl).elim
    | _ => cases h
  | array elements =>
    cases b with
    | array elements' => exact (hpair.not_arrays _ _ rfl rfl).elim
    | _ => cases h
  | _ =>
    refine ⟨⟨nofun, nofun⟩, ?_, ?_⟩
    · intro members hb
      rw [hb] at h
      cases h
    · intro elements hb
      rw [hb] at h
      cases h

/-- Leaves that are equivalent have no parts. -/
theorem IsLeafPair.isScalar_of_equivalent {a b : Value} (hpair : IsLeafPair a b)
    (h : a.equivalent b = true) : a.IsScalar ∧ b.IsScalar := by
  unfold equivalent at h
  rw [Bool.or_eq_true] at h
  rcases h with h | h
  · exact hpair.isScalar_of_same h
  · split at h
    · exact ⟨⟨nofun, nofun⟩, ⟨nofun, nofun⟩⟩
    · exact ⟨⟨nofun, nofun⟩, ⟨nofun, nofun⟩⟩
    · cases h

end Value

end ReconcileTrigger.Json
