import Mathlib.Data.List.Nodup
import ReconcileTrigger.Proofs.Dict

/-!
Names that have to differ. Entries are checked from left to right against the names seen before, and
what such a check amounts to is said here once for all of them: it ends at the first entry that is
at fault, and finds none iff every entry is in order and has a name of its own. A set of names holds
what is in the list it is made from, and among entries with names of their own a name finds the one
that has it.
-/

namespace ReconcileTrigger

def Fresh (seen names : List String) : Prop :=
  names.Nodup ∧ names.Disjoint seen

@[simp] theorem fresh_nil (seen : List String) : Fresh seen [] :=
  ⟨List.nodup_nil, List.disjoint_nil_left seen⟩

@[simp] theorem fresh_nil_left {names : List String} : Fresh [] names ↔ names.Nodup :=
  and_iff_left (List.disjoint_nil_right names)

/-- One step of the check. -/
theorem fresh_cons_iff {seen names : List String} {name : String} :
    Fresh seen (name :: names) ↔ name ∉ seen ∧ Fresh (name :: seen) names := by
  unfold Fresh
  rw [List.nodup_cons, List.disjoint_cons_left, List.disjoint_cons_right]
  constructor
  · rintro ⟨⟨hname, hnodup⟩, hseen, hdisjoint⟩
    exact ⟨hseen, hnodup, hname, hdisjoint⟩
  · rintro ⟨hseen, hnodup, hname, hdisjoint⟩
    exact ⟨⟨hname, hnodup⟩, hseen, hdisjoint⟩

/-- A check of entries from left to right, each of them on its own against the names before it. -/
structure NameCheck {α ε : Type} (nameOf : α → String)
    (check : List String → List α → Option ε) : Prop where
  nil : ∀ seen, check seen [] = none
  cons : ∀ seen a rest,
    check seen (a :: rest) = (check seen [a]).or (check (nameOf a :: seen) rest)

namespace NameCheck

variable {α ε : Type} {nameOf : α → String} {check : List String → List α → Option ε}
  {seen : List String} {entries : List α}

/-- What is found is the fault of the first entry at fault. -/
theorem eq_some_iff (h : NameCheck nameOf check) {e : ε} :
    check seen entries = some e ↔ ∃ before a after, entries = before ++ a :: after ∧
      check seen before = none ∧ check ((before.map nameOf).reverse ++ seen) [a] = some e := by
  induction entries generalizing seen with
  | nil =>
    rw [h.nil]
    refine iff_of_false nofun ?_
    rintro ⟨before, a, after, heq, _⟩
    exact List.append_ne_nil_of_right_ne_nil before (List.cons_ne_nil a after) heq.symm
  | cons first rest ih =>
    rw [h.cons, Option.or_eq_some_iff, ih]
    constructor
    · rintro (hfirst | ⟨hfirst, before, a, after, rfl, hbefore, ha⟩)
      · exact ⟨[], first, rest, rfl, h.nil seen, hfirst⟩
      · refine ⟨first :: before, a, after, rfl, ?_, ?_⟩
        · rw [h.cons, hfirst, hbefore, Option.or_none]
        · rwa [List.map_cons, List.reverse_cons, List.append_assoc, List.singleton_append]
    · rintro ⟨before, a, after, heq, hbefore, ha⟩
      cases before with
      | nil =>
        obtain ⟨rfl, rfl⟩ := List.cons.inj heq
        exact .inl ha
      | cons first' before =>
        obtain ⟨rfl, rfl⟩ := List.cons.inj heq
        rw [h.cons, Option.or_eq_none_iff] at hbefore
        refine .inr ⟨hbefore.1, before, a, after, rfl, hbefore.2, ?_⟩
        rwa [List.map_cons, List.reverse_cons, List.append_assoc, List.singleton_append] at ha

/-- Nothing is found iff each entry is in order and no name is there twice. -/
theorem eq_none_iff (h : NameCheck nameOf check) {InOrder : α → Prop}
    (hone : ∀ seen a, check seen [a] = none ↔ InOrder a ∧ nameOf a ∉ seen) :
    check seen entries = none ↔
      (∀ a ∈ entries, InOrder a) ∧ Fresh seen (entries.map nameOf) := by
  induction entries generalizing seen with
  | nil => simp [h.nil]
  | cons a rest ih =>
    rw [h.cons, Option.or_eq_none_iff, hone, ih, List.map_cons, fresh_cons_iff,
      List.forall_mem_cons]
    constructor
    · rintro ⟨⟨ha, hname⟩, hrest, hfresh⟩
      exact ⟨⟨ha, hrest⟩, hname, hfresh⟩
    · rintro ⟨⟨ha, hrest⟩, hname, hfresh⟩
      exact ⟨⟨ha, hname⟩, hrest, hfresh⟩

end NameCheck

theorem NameSet.contains_ofList {names : List String} {name : String} :
    (NameSet.ofList names).contains name = true ↔ name ∈ names := by
  have hlookup : (NameSet.ofList names).contains name =
      ((names.map (·, ())).reverse.lookup name).isSome :=
    congrArg Option.isSome (lookup_sortEntries _ name)
  have hkeys : (names.map (·, ())).map Prod.fst = names := by
    rw [List.map_map]
    exact List.map_id names
  rw [hlookup, lookup_isSome_iff_mem_keys, List.map_reverse, List.mem_reverse, hkeys]

/-- Where names differ, a name finds the entry that has it. -/
theorem find?_name_eq_some_iff {α : Type} {nameOf : α → String} {entries : List α}
    (hnodup : (entries.map nameOf).Nodup) {name : String} {a : α} :
    entries.find? (nameOf · == name) = some a ↔ a ∈ entries ∧ nameOf a = name := by
  constructor
  · intro h
    exact ⟨List.mem_of_find?_eq_some h, by simpa using List.find?_some h⟩
  · rintro ⟨ha, rfl⟩
    have hsome : (entries.find? (nameOf · == nameOf a)).isSome = true :=
      List.find?_isSome.2 ⟨a, ha, beq_self_eq_true _⟩
    obtain ⟨found, hfound⟩ := Option.isSome_iff_exists.1 hsome
    have hname : nameOf found = nameOf a := by simpa using List.find?_some hfound
    rw [hfound]
    exact congrArg some
      (List.inj_on_of_nodup_map hnodup (List.mem_of_find?_eq_some hfound) ha hname)

end ReconcileTrigger
