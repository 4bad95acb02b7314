import Mathlib.Data.List.Induction
import Mathlib.Data.List.TakeWhile
import ReconcileTrigger.Document.Overlay
import ReconcileTrigger.Proofs.Record

/-!
Documents laid over one another. A document with nothing in it that changes is put down as it is. A
key with a point in it reaches one entry of one table: it makes the table if there is none, and
leaves every other entry of it alone, so what stands at a place after many keys is what the last
one of them put there that touches the place.
-/

namespace ReconcileTrigger

namespace Document

/-- A document that stays what it is when it is laid over nothing. -/
def Plain (d : Document) : Prop :=
  overlay .null d = d

/-- What is no table replaces what was there. -/
theorem overlay_of_entries? {lower upper : Document} (h : upper.entries? = none) :
    lower.overlay upper = upper := by
  cases upper with
  | table entries => contradiction
  | _ =>
    rw [overlay]
    exact nofun

theorem plain_text (s : String) : Plain (.text s) :=
  overlay_of_entries? rfl

theorem plain_list (elements : List Document) : Plain (.list elements) :=
  overlay_of_entries? rfl

section Overlay

variable {lower upper : Fields Document} {name : String}

theorem overlayEntries_eq_append (hplain : ∀ e ∈ upper, e.2.Plain)
    (hnodup : ((lower ++ upper).map Prod.fst).Nodup) :
    overlayEntries lower upper = lower ++ upper := by
  induction upper generalizing lower with
  | nil => rw [overlayEntries, List.append_nil]
  | cons e rest ih =>
    obtain ⟨name, d⟩ := e
    obtain ⟨hd, hrest⟩ := List.forall_mem_cons.1 hplain
    have hfresh : lower.lookup name = none := Fields.lookup_eq_none_of_nodup hnodup
    have hjoin : lower ++ (name, d) :: rest = lower ++ [(name, d)] ++ rest := by
      rw [List.append_assoc, List.singleton_append]
    rw [hjoin] at hnodup ⊢
    rw [overlayEntries, hfresh, Option.getD_none, hd, Fields.put_eq_append hfresh, ih hrest hnodup]

/-- A table with each name once and nothing in it that changes. -/
theorem plain_table (hplain : ∀ e ∈ upper, e.2.Plain) (hnodup : (upper.map Prod.fst).Nodup) :
    Plain (.table upper) := by
  rw [Plain, overlay]
  split
  · rename_i hempty
    rw [List.isEmpty_iff.1 hempty]
    rfl
  · have hentries : overlayEntries [] upper = upper := overlayEntries_eq_append hplain hnodup
    exact congrArg Document.table hentries

/-- A key without points and brackets names an entry. -/
theorem ofKey_eq_of_isNameChar {key : String} (h : ∀ c ∈ key.toList, Place.isNameChar c = true) :
    Place.ofKey key = ⟨key, []⟩ := by
  have htake : key.toList.takeWhile Place.isNameChar = key.toList := List.takeWhile_eq_self_iff.2 h
  have hdrop : key.toList.dropWhile Place.isNameChar = [] := List.dropWhile_eq_nil_iff.2 h
  simp only [Place.ofKey, htake, hdrop, Place.steps?, String.ofList_toList]
  split <;> rfl

theorem overlayFields_eq_append (hkeys : ∀ e ∈ upper, ∀ c ∈ e.1.toList, Place.isNameChar c = true)
    (hplain : ∀ e ∈ upper, e.2.Plain) (hnodup : ((lower ++ upper).map Prod.fst).Nodup) :
    overlayFields lower upper = lower ++ upper := by
  induction upper generalizing lower with
  | nil => rw [overlayFields, List.foldl_nil, List.append_nil]
  | cons e rest ih =>
    obtain ⟨name, d⟩ := e
    obtain ⟨hname, hkeys⟩ := List.forall_mem_cons.1 hkeys
    obtain ⟨hd, hrest⟩ := List.forall_mem_cons.1 hplain
    have hfresh : lower.lookup name = none := Fields.lookup_eq_none_of_nodup hnodup
    have hkey : overlayKey lower name d = lower ++ [(name, d)] := by
      simp only [overlayKey, ofKey_eq_of_isNameChar hname, hfresh, Option.getD_none, overlayAt]
      rw [hd, Fields.put_eq_append hfresh]
    have hjoin : lower ++ (name, d) :: rest = lower ++ [(name, d)] ++ rest := by
      rw [List.append_assoc, List.singleton_append]
    rw [hjoin] at hnodup ⊢
    rw [← ih hkeys hrest hnodup, ← hkey]
    rfl

end Overlay

end Document

def Step.Reaches (inner : String) : Step → Prop
  | .entry name => name = inner
  | .element _ => True

instance (inner : String) : DecidablePred (Step.Reaches inner)
  | .entry name => inferInstanceAs (Decidable (name = inner))
  | .element _ => inferInstanceAs (Decidable True)

namespace Place

/-- The place is an entry of a table, or the whole of it, or a part of the entry. A place in the
list that stands where the table should be touches all of them. -/
def Touches (p : Place) (outer inner : String) : Prop :=
  p.entry = outer ∧ ∀ step ∈ p.steps.head?, step.Reaches inner

instance (p : Place) (outer inner : String) : Decidable (p.Touches outer inner) :=
  inferInstanceAs (Decidable (_ ∧ _))

theorem touches_entry (outer inner : String) : Touches ⟨outer, [.entry inner]⟩ outer inner := by
  refine ⟨rfl, ?_⟩
  rintro _ ⟨⟩
  rfl

theorem exists_entry_of_not_touches {p : Place} {outer inner : String}
    (h : ¬ p.Touches outer inner) (houter : p.entry = outer) :
    ∃ name steps, p.steps = .entry name :: steps ∧ name ≠ inner := by
  obtain ⟨entry, steps⟩ := p
  match steps, h with
  | [], h => exact absurd ⟨houter, nofun⟩ h
  | .entry name :: steps, h =>
    refine ⟨name, steps, rfl, fun hname => h ⟨houter, ?_⟩⟩
    rintro _ ⟨⟩
    exact hname
  | .element index :: steps, h =>
    refine absurd ⟨houter, ?_⟩ h
    rintro _ ⟨⟩
    trivial

/-- Two names with a point between them name an entry of a table. -/
theorem ofKey_append_point {outer inner : String}
    (houter : outer ≠ "" ∧ outer.toList.all isNameChar = true)
    (hinner : inner ≠ "" ∧ inner.toList.all isNameChar = true) :
    ofKey (outer ++ "." ++ inner) = ⟨outer, [.entry inner]⟩ := by
  have hkey : (outer ++ "." ++ inner).toList = outer.toList ++ '.' :: inner.toList := by
    simp
  obtain ⟨hne, hchars⟩ := houter
  obtain ⟨hinnerNe, hinnerChars⟩ := hinner
  have hname : (outer.toList ++ '.' :: inner.toList).takeWhile isNameChar = outer.toList := by
    rw [List.takeWhile_append_of_pos (List.all_eq_true.1 hchars)]
    simp [isNameChar]
  have hrest :
      (outer.toList ++ '.' :: inner.toList).dropWhile isNameChar = '.' :: inner.toList := by
    rw [List.dropWhile_append_of_pos (List.all_eq_true.1 hchars)]
    rfl
  have hinnerName : inner.toList.takeWhile isNameChar = inner.toList :=
    List.takeWhile_eq_self_iff.2 (List.all_eq_true.1 hinnerChars)
  have hinnerRest : inner.toList.dropWhile isNameChar = [] :=
    List.dropWhile_eq_nil_iff.2 (List.all_eq_true.1 hinnerChars)
  have hsteps : steps? ('.' :: inner.toList) = some [.entry inner] := by
    simp [steps?, hinnerName, hinnerRest, hinnerNe]
  simp [ofKey, hkey, hname, hrest, hsteps, hne]

end Place

namespace Document

def entriesAt (fields : Fields Document) (outer : String) : Fields Document :=
  ((fields.lookup outer).getD .null).entries?.getD []

section Keys

variable {fields lower upper : Fields Document} {key outer inner : String} {d : Document}

theorem overlayFields_concat (lower before : Fields Document) (e : String × Document) :
    overlayFields lower (before ++ [e]) = overlayKey (overlayFields lower before) e.1 e.2 := by
  rw [overlayFields, List.foldl_append, List.foldl_cons, List.foldl_nil]
  rfl

theorem lookup_overlayKey_of_ne (h : (Place.ofKey key).entry ≠ outer) :
    (overlayKey fields key d).lookup outer = fields.lookup outer :=
  Fields.lookup_put_of_ne h.symm

theorem lookup_overlayKey {name : String} {steps : List Step}
    (houter : (Place.ofKey key).entry = outer)
    (hsteps : (Place.ofKey key).steps = .entry name :: steps) :
    (overlayKey fields key d).lookup outer = some (.table ((entriesAt fields outer).put name
      (overlayAt d steps (((entriesAt fields outer).lookup name).getD .null)))) := by
  rw [overlayKey, houter, Fields.lookup_put_self, hsteps]
  rfl

theorem entriesAt_overlayKey {name : String} {steps : List Step}
    (houter : (Place.ofKey key).entry = outer)
    (hsteps : (Place.ofKey key).steps = .entry name :: steps) :
    entriesAt (overlayKey fields key d) outer = (entriesAt fields outer).put name
      (overlayAt d steps (((entriesAt fields outer).lookup name).getD .null)) := by
  rw [entriesAt, lookup_overlayKey houter hsteps]
  rfl

theorem entriesAt_overlayKey_of_ne (h : (Place.ofKey key).entry ≠ outer) :
    entriesAt (overlayKey fields key d) outer = entriesAt fields outer := by
  rw [entriesAt, lookup_overlayKey_of_ne h]
  rfl

theorem lookup_overlayFields_of_ne (h : ∀ e ∈ upper, (Place.ofKey e.1).entry ≠ outer) :
    (overlayFields lower upper).lookup outer = lower.lookup outer := by
  induction upper using List.reverseRecOn with
  | nil => rfl
  | append_singleton before e ih =>
    rw [List.forall_mem_append, List.forall_mem_singleton] at h
    rw [overlayFields_concat, lookup_overlayKey_of_ne h.2, ih h.1]

/-- A key that does not touch an entry leaves it alone. -/
theorem lookup_entriesAt_overlayKey (h : ¬ (Place.ofKey key).Touches outer inner) :
    (entriesAt (overlayKey fields key d) outer).lookup inner =
      (entriesAt fields outer).lookup inner := by
  by_cases houter : (Place.ofKey key).entry = outer
  · obtain ⟨name, steps, hsteps, hname⟩ := Place.exists_entry_of_not_touches h houter
    rw [entriesAt_overlayKey houter hsteps, Fields.lookup_put_of_ne hname.symm]
  · rw [entriesAt_overlayKey_of_ne houter]

theorem lookup_entriesAt_overlayFields
    (h : ∀ e ∈ upper, ¬ (Place.ofKey e.1).Touches outer inner) :
    (entriesAt (overlayFields lower upper) outer).lookup inner =
      (entriesAt lower outer).lookup inner := by
  induction upper using List.reverseRecOn with
  | nil => rfl
  | append_singleton before e ih =>
    rw [List.forall_mem_append, List.forall_mem_singleton] at h
    rw [overlayFields_concat, lookup_entriesAt_overlayKey h.2, ih h.1]

/-- Where only one key touches an entry, its document is there in the end. -/
theorem lookup_entriesAt_of_mem (hkey : Place.ofKey key = ⟨outer, [.entry inner]⟩)
    (hd : d.entries? = none) (hmem : (key, d) ∈ upper)
    (honly : ∀ e ∈ upper, (Place.ofKey e.1).Touches outer inner → e = (key, d)) :
    (entriesAt (overlayFields lower upper) outer).lookup inner = some d := by
  induction upper using List.reverseRecOn with
  | nil => contradiction
  | append_singleton before e ih =>
    rw [List.forall_mem_append, List.forall_mem_singleton] at honly
    obtain ⟨hbefore, he⟩ := honly
    rw [overlayFields_concat]
    by_cases htouches : (Place.ofKey e.1).Touches outer inner
    · rw [he htouches, entriesAt_overlayKey (congrArg Place.entry hkey) (congrArg Place.steps hkey),
        Fields.lookup_put_self, overlayAt, overlay_of_entries? hd]
    · rw [lookup_entriesAt_overlayKey htouches]
      refine ih ?_ hbefore
      obtain hin | heq := List.mem_append.1 hmem
      · exact hin
      · rw [← List.mem_singleton.1 heq, hkey] at htouches
        exact absurd (Place.touches_entry outer inner) htouches

/-- A record is a table once a key has put an entry there. -/
theorem exists_table_of_entry
    (hsteps : ∀ e ∈ upper, (Place.ofKey e.1).entry = outer →
      ∃ name steps, (Place.ofKey e.1).steps = .entry name :: steps)
    (hmem : ∃ e ∈ upper, (Place.ofKey e.1).entry = outer) :
    ∃ entries, (overlayFields lower upper).lookup outer = some (.table entries) := by
  induction upper using List.reverseRecOn with
  | nil => simp at hmem
  | append_singleton before e ih =>
    rw [List.forall_mem_append, List.forall_mem_singleton] at hsteps
    obtain ⟨hbefore, he⟩ := hsteps
    rw [overlayFields_concat]
    by_cases houter : (Place.ofKey e.1).entry = outer
    · obtain ⟨name, steps, hsteps⟩ := he houter
      exact ⟨_, lookup_overlayKey houter hsteps⟩
    · rw [lookup_overlayKey_of_ne houter]
      refine ih hbefore ?_
      obtain ⟨a, ha, hentry⟩ := hmem
      obtain hin | heq := List.mem_append.1 ha
      · exact ⟨a, hin, hentry⟩
      · rw [List.mem_singleton.1 heq] at hentry
        exact absurd hentry houter

end Keys

end Document

end ReconcileTrigger
