import Mathlib.Data.List.Nodup
import ReconcileTrigger.Proofs.Diff.Semantic
import ReconcileTrigger.Proofs.Json.Interference

/-!
Reading the pointers of a patch back. A replacement is for one position of the old document, and its
pointer is followed to the part there, whatever characters the keys have and whatever else the patch
adds or removes. So a semantic diff is never without the value that is replaced.
-/

namespace ReconcileTrigger.Diff

open Json (Value Operation Pointer Step Position)
open Json.Operation (applyAll?)

/-- A replacement in the patch between two documents is for the position `p` of both. They have
different parts there, the new one has the value of the operation, and no other position of the old
one has the same pointer. -/
structure IsReplacement (old new : Value) (path : Pointer) (value : Value) (p : Position)
    (previous : Value) : Prop where
  path_eq : path = p.pointer
  unique : ∀ q : Position, q.pointer = path → (old.at? q).isSome = true → q = p
  at_old : old.at? p = some previous
  at_new : new.at? p = some value
  differ : previous.same value = false

variable {old new value previous : Value} {path : Pointer} {p : Position}

theorem exists_isReplacement (hnew : new.WellFormed)
    (h : Operation.replace path value ∈ Json.changes [] old new) :
    ∃ p previous, IsReplacement old new path value p previous := by
  rw [Json.changes_nil_eq_edits] at h
  obtain ⟨p, previous, rfl, hold, hat, _, hdiffer⟩ := (Json.isEdit_of_mem_edits hnew h).of_replace
  refine ⟨p, previous, rfl, ?_, hold, hat, hdiffer⟩
  intro q hq hsome
  obtain ⟨_, hpart⟩ := Option.isSome_iff_exists.1 hsome
  exact Position.eq_of_pointer_eq hpart hold hq

theorem IsReplacement.pointed?_eq (h : IsReplacement old new path value p previous) :
    old.pointed? path = some previous := by
  rw [h.path_eq]
  exact Value.pointed?_pointer h.at_old

/-- The replaced part stays where it is when other operations of the patch are applied. -/
theorem IsReplacement.at?_of_others (h : IsReplacement old new path value p previous)
    (hold : old.WellFormed) (hnew : new.WellFormed) {before after ops : List Operation}
    (hpatch : Json.changes [] old new = before ++ .replace path value :: after)
    (hops : ops ⊆ before ++ after) {d : Value} (hd : applyAll? ops old = some d) :
    d.at? p = some previous := by
  rw [Json.changes_nil_eq_edits, h.path_eq] at hpatch
  have hspares := Json.spares_of_edits_eq hold hnew h.at_old hpatch
  exact Operation.at?_of_spares (fun op hop => hspares op (hops hop)) hd h.at_old

theorem exists_applyAll?_before (hold : old.WellFormed) (hnew : new.WellFormed)
    {before rest : List Operation} (hpatch : Json.changes [] old new = before ++ rest) :
    ∃ d, applyAll? before old = some d := by
  have hall : applyAll? (Json.edits Value.same old new) old = _ := Json.applyAll?_edits hold hnew
  rw [← Json.changes_nil_eq_edits, hpatch, Operation.applyAll?_append] at hall
  obtain ⟨d, hd, _⟩ := Option.bind_eq_some_iff.1 hall
  exact ⟨d, hd⟩

/-- `isSignificant` with another answer for a replacement whose pointer leads nowhere. -/
def isSignificantOr (unfound : Bool) (old : Value) : Operation → Bool
  | .replace path value =>
    match old.pointed? path with
    | some previous => !previous.equivalent value
    | none => unfound
  | _ => true

theorem isSignificantOr_of_mem_changes (hnew : new.WellFormed) {op : Operation}
    (h : op ∈ Json.changes [] old new) (unfound : Bool) :
    isSignificantOr unfound old op = isSignificant old op := by
  cases op with
  | replace path value =>
    obtain ⟨p, previous, hp⟩ := exists_isReplacement hnew h
    simp only [isSignificantOr, isSignificant, hp.pointed?_eq]
  | add => rfl
  | remove => rfl

/-- Every replacement of a patch is for one position. Its pointer finds the part of the old document
there, in the old document itself and after any of the other operations, and in its turn it puts the
part of the new document there. The first key of a pointer is read back as the top-level field,
whatever follows it. A semantic diff does not depend on what is done with a replacement that finds
nothing, since there is none. -/
theorem replaced_parts_are_read_back (old new : Value) (hold : old.WellFormed)
    (hnew : new.WellFormed) :
    (∀ before path value after, Json.changes [] old new = before ++ .replace path value :: after →
      ∃ p previous, IsReplacement old new path value p previous ∧
        old.pointed? path = some previous ∧
        (∀ ops ⊆ before ++ after, ∀ d, applyAll? ops old = some d →
          d.pointed? path = some previous) ∧
        ∃ d next, applyAll? before old = some d ∧
          (Operation.replace path value).applyTo? d = some next ∧ next.at? p = some value) ∧
    (∀ (key : String) (below : Pointer), (below = [] ∨ ∃ rest, below = '/' :: rest) →
      Pointer.topLevelField ('/' :: Pointer.escape key.toList ++ below) = key) ∧
    ∀ unfound, semantic old new =
      ofPatch ((Json.changes [] old new).filter (isSignificantOr unfound old)) := by
  refine ⟨?_, fun key _ => Pointer.topLevelField_escape key, ?_⟩
  · intro before path value after hpatch
    have hmem : Operation.replace path value ∈ Json.changes [] old new := by
      rw [hpatch]
      exact List.mem_append_right _ (List.mem_cons_self ..)
    obtain ⟨p, previous, hp⟩ := exists_isReplacement hnew hmem
    obtain ⟨d, hd⟩ := exists_applyAll?_before hold hnew hpatch
    have hat := hp.at?_of_others hold hnew hpatch (List.subset_append_left before after) hd
    obtain ⟨next, hnext, hvalue⟩ := Operation.exists_applyTo?_replace hat value
    rw [← hp.path_eq] at hnext
    refine ⟨p, previous, hp, hp.pointed?_eq, ?_, d, next, hd, hnext, hvalue⟩
    intro ops hops d hd
    rw [hp.path_eq]
    exact Value.pointed?_pointer (hp.at?_of_others hold hnew hpatch hops hd)
  · intro unfound
    rw [semantic]
    congr 1
    apply List.filter_congr
    intro op hop
    exact (isSignificantOr_of_mem_changes hnew hop unfound).symm

/-- Two lists, one of them below a key that looks like an escaped slash. -/
def listsBefore : List (String × Value) :=
  [("hosts/b", .array [.string "x", .string "y"]),
    ("~1", .object [("0", .array [.string "p", .string "q"])])]

def listsAfter : List (String × Value) :=
  [("hosts/b", .array [.string "x"]), ("~1", .object [("0", .array [.string "p", .string "r"])])]

theorem wellFormed_listsBefore : (Value.object listsBefore).WellFormed := by
  decide +kernel

theorem wellFormed_listsAfter : (Value.object listsAfter).WellFormed := by
  decide +kernel

theorem replaced_parts_are_read_back_lists :
    (∃ p, IsReplacement (.object listsBefore) (.object listsAfter) "/~01/0/1".toList (.string "r") p
      (.string "q")) ∧
    (∀ d, applyAll? [.remove "/hosts~1b/1".toList] (.object listsBefore) = some d →
      d.pointed? "/~01/0/1".toList = some (.string "q")) ∧
    Pointer.topLevelField "/~01/0/1".toList = "~1" ∧
    semantic (.object listsBefore) (.object listsAfter) =
      ofPatch ((Json.changes [] (.object listsBefore) (.object listsAfter)).filter
        (isSignificantOr false (.object listsBefore))) := by
  obtain ⟨hreplaced, htop, hunfound⟩ := replaced_parts_are_read_back (.object listsBefore)
    (.object listsAfter) wellFormed_listsBefore wellFormed_listsAfter
  obtain ⟨p, previous, hp, hfound, hstays, _⟩ := hreplaced [.remove "/hosts~1b/1".toList]
    "/~01/0/1".toList (.string "r") [] rfl
  obtain rfl : previous = .string "q" := Option.some.inj (hfound.symm.trans rfl)
  exact ⟨⟨p, hp⟩, hstays _ (List.Subset.refl _), htop "~1" "/0/1".toList (.inr ⟨_, rfl⟩),
    hunfound false⟩

end ReconcileTrigger.Diff
