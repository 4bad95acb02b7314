import Mathlib.Data.List.Forall2
import ReconcileTrigger.Proofs.Dict
import ReconcileTrigger.Record

/-!
Records as lists of named fields: a new name goes to the end, and a name that is there keeps its
place. The elements of a list in a record are read one by one.
-/

namespace ReconcileTrigger

theorem mapM_eq_some_iff_forall₂ {α β : Type} {f : α → Option β} {l : List α} {r : List β} :
    l.mapM f = some r ↔ List.Forall₂ (fun a b => f a = some b) l r := by
  induction l generalizing r with
  | nil =>
    rw [List.mapM_nil, List.forall₂_nil_left_iff, Option.pure_def, Option.some_inj, eq_comm]
  | cons a rest ih =>
    simp only [List.mapM_cons, Option.bind_eq_bind, Option.bind_eq_some_iff, Option.pure_def,
      Option.some_inj, List.forall₂_cons_left_iff, ih]
    constructor
    · rintro ⟨b, hb, others, hothers, rfl⟩
      exact ⟨b, others, hb, hothers, rfl⟩
    · rintro ⟨b, others, hb, hothers, rfl⟩
      exact ⟨b, hb, others, hothers, rfl⟩

theorem exists_forall₂_iff {α β : Type} {R : α → β → Prop} {l : List α} :
    (∃ r, List.Forall₂ R l r) ↔ ∀ a ∈ l, ∃ b, R a b := by
  induction l with
  | nil => simp
  | cons a rest ih =>
    rw [List.forall_mem_cons, ← ih]
    simp only [List.forall₂_cons_left_iff]
    constructor
    · rintro ⟨_, b, others, hb, hothers, _⟩
      exact ⟨⟨b, hb⟩, others, hothers⟩
    · rintro ⟨⟨b, hb⟩, others, hothers⟩
      exact ⟨_, b, others, hb, hothers, rfl⟩

theorem mapM_map_eq_some {α ν : Type} {read : ν → Option α} {write : α → ν}
    (h : ∀ a, read (write a) = some a) (l : List α) : (l.map write).mapM read = some l := by
  rw [mapM_eq_some_iff_forall₂, List.forall₂_map_left_iff, List.forall₂_same]
  exact fun a _ => h a

namespace Fields

variable {ν : Type} {fields before after : Fields ν} {name : String} {value : ν}

theorem lookup_eq_none_iff_not_mem_keys :
    fields.lookup name = none ↔ name ∉ fields.map Prod.fst := by
  rw [← lookup_isSome_iff_mem_keys, Bool.not_eq_true, Option.isSome_eq_false_iff,
    Option.isNone_iff_eq_none]

theorem lookup_eq_none_of_nodup
    (h : ((before ++ (name, value) :: after).map Prod.fst).Nodup) : before.lookup name = none := by
  rw [List.map_append, List.nodup_append] at h
  exact lookup_eq_none_iff_not_mem_keys.2 fun hmem =>
    h.2.2 name hmem name (List.mem_cons_self ..) rfl

theorem lookup_append_cons (h : before.lookup name = none) (value : ν) :
    (before ++ (name, value) :: after).lookup name = some value := by
  rw [List.lookup_append, h, List.lookup_cons_self, Option.none_or]

theorem put_eq_append (h : fields.lookup name = none) (value : ν) :
    fields.put name value = fields ++ [(name, value)] := by
  induction fields with
  | nil => rfl
  | cons e rest ih =>
    obtain ⟨n, v⟩ := e
    rw [List.lookup_cons] at h
    split at h
    · contradiction
    · rename_i hne
      have hname : n ≠ name := fun heq => beq_eq_false_iff_ne.1 hne heq.symm
      rw [put, if_neg hname, ih h, List.cons_append]

theorem put_append_cons (h : before.lookup name = none) (earlier value : ν) :
    (before ++ (name, earlier) :: after).put name value = before ++ (name, value) :: after := by
  induction before with
  | nil => exact if_pos rfl
  | cons e rest ih =>
    obtain ⟨n, v⟩ := e
    rw [List.lookup_cons] at h
    split at h
    · contradiction
    · rename_i hne
      have hname : n ≠ name := fun heq => beq_eq_false_iff_ne.1 hne heq.symm
      rw [List.cons_append, put, if_neg hname, ih h, List.cons_append]

theorem lookup_cons_eq_ite {key : String} :
    ((name, value) :: fields).lookup key =
      if key = name then some value else fields.lookup key := by
  rw [List.lookup_cons]
  split
  · rename_i heq
    rw [if_pos (beq_iff_eq.1 heq)]
  · rename_i hne
    rw [if_neg (beq_eq_false_iff_ne.1 hne)]

theorem lookup_put (key : String) :
    (fields.put name value).lookup key = if key = name then some value else fields.lookup key := by
  induction fields with
  | nil => rw [put, lookup_cons_eq_ite]
  | cons e rest ih =>
    obtain ⟨n, v⟩ := e
    rw [put]
    by_cases hn : n = name
    · subst hn
      rw [if_pos rfl, lookup_cons_eq_ite, lookup_cons_eq_ite]
      split <;> rfl
    · rw [if_neg hn, lookup_cons_eq_ite, lookup_cons_eq_ite, ih]
      by_cases hkey : key = n
      · rw [if_pos hkey, if_neg (hkey ▸ hn), if_pos hkey]
      · rw [if_neg hkey, if_neg hkey]

theorem lookup_put_self : (fields.put name value).lookup name = some value := by
  rw [lookup_put, if_pos rfl]

theorem lookup_put_of_ne {key : String} (h : key ≠ name) :
    (fields.put name value).lookup key = fields.lookup key := by
  rw [lookup_put, if_neg h]

end Fields

end ReconcileTrigger
