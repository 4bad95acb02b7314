import Mathlib.Data.List.Nodup
import ReconcileTrigger.Dict

/-!
Entries in ascending order of their keys are fixed by what is looked up in them. So two ways of
building the same entries are compared key by key, never entry by entry.
-/

namespace ReconcileTrigger

variable {α : Type} {entries : List (String × α)}

instance (entries : List (String × α)) : Decidable (SortedKeys entries) :=
  inferInstanceAs (Decidable (List.Pairwise _ _))

theorem SortedKeys.nodup (h : SortedKeys entries) : (entries.map Prod.fst).Nodup := by
  refine List.Pairwise.imp ?_ h
  rintro a b hlt rfl
  exact String.lt_irrefl a hlt

theorem sortedKeys_map {β : Type} {f : String × α → String × β} (h : SortedKeys entries)
    (hf : ∀ e, (f e).1 = e.1) : SortedKeys (entries.map f) := by
  have hkeys : (entries.map f).map Prod.fst = entries.map Prod.fst := by
    rw [List.map_map]
    exact List.map_congr_left fun e _ => hf e
  rw [SortedKeys, hkeys]
  exact h

theorem mem_of_lookup_eq_some {key : String} {value : α} (h : entries.lookup key = some value) :
    (key, value) ∈ entries := by
  obtain ⟨before, after, heq, _⟩ := List.lookup_eq_some_iff.1 h
  rw [heq]
  exact List.mem_append_right _ (List.mem_cons_self ..)

/-- Under keys that differ an entry is what is looked up under its key. -/
theorem lookup_eq_some_iff_mem_of_nodup (h : (entries.map Prod.fst).Nodup) {key : String}
    {value : α} : entries.lookup key = some value ↔ (key, value) ∈ entries := by
  refine ⟨mem_of_lookup_eq_some, ?_⟩
  intro hmem
  induction entries with
  | nil => simp at hmem
  | cons first rest ih =>
    obtain ⟨k, v⟩ := first
    obtain ⟨hfirst, hrest⟩ := List.nodup_cons.1 h
    rcases List.mem_cons.1 hmem with heq | hlater
    · obtain ⟨rfl, rfl⟩ := Prod.mk.inj heq
      exact List.lookup_cons_self
    · have hne : key ≠ k := by
        rintro rfl
        exact hfirst (List.mem_map.2 ⟨(key, value), hlater, rfl⟩)
      have hkey : (key == k) = false := by simpa using hne
      simp only [List.lookup_cons, hkey]
      exact ih hrest hlater

theorem lookup_eq_some_iff_mem (h : SortedKeys entries) {key : String} {value : α} :
    entries.lookup key = some value ↔ (key, value) ∈ entries :=
  lookup_eq_some_iff_mem_of_nodup h.nodup

theorem lookup_reverse (h : SortedKeys entries) (key : String) :
    entries.reverse.lookup key = entries.lookup key := by
  have hnodup : (entries.reverse.map Prod.fst).Nodup := by
    rw [List.map_reverse, List.nodup_reverse]
    exact h.nodup
  apply Option.ext
  intro value
  rw [lookup_eq_some_iff_mem_of_nodup hnodup, List.mem_reverse, lookup_eq_some_iff_mem h]

theorem lookup_isSome_iff_mem_keys {key : String} :
    (entries.lookup key).isSome = true ↔ key ∈ entries.map Prod.fst := by
  rw [List.lookup_isSome_iff, List.mem_map]
  apply exists_congr
  intro e
  rw [beq_iff_eq, eq_comm]

private theorem mem_foldl_insertEntry {written sorted : List (String × α)} {e : String × α}
    (h : e ∈ written.foldl (fun sorted (key, value) => insertEntry key value sorted) sorted) :
    e ∈ written ∨ e ∈ sorted := by
  induction written generalizing sorted with
  | nil => exact .inr h
  | cons first rest ih =>
    rcases ih h with hrest | hsorted
    · exact .inl (List.mem_cons_of_mem _ hrest)
    · rcases mem_insertEntry hsorted with rfl | hold
      · exact .inl (List.mem_cons_self ..)
      · exact .inr hold

theorem mem_of_mem_sortEntries {e : String × α} (h : e ∈ sortEntries entries) : e ∈ entries := by
  rcases mem_foldl_insertEntry h with hmem | hnil
  · exact hmem
  · exact absurd hnil List.not_mem_nil

/-- Entries that are inserted are found before older ones, the later ones first. -/
theorem lookup_foldl_insertEntry (written sorted : List (String × α)) (key : String) :
    (written.foldl (fun sorted (key, value) => insertEntry key value sorted) sorted).lookup key =
      (written.reverse.lookup key).or (sorted.lookup key) := by
  induction written generalizing sorted with
  | nil => rfl
  | cons first rest ih =>
    obtain ⟨k, v⟩ := first
    rw [List.foldl_cons, ih, List.reverse_cons, List.lookup_append, Option.or_assoc]
    congr 1
    by_cases hkey : key = k
    · rw [hkey, lookup_insertEntry_self, List.lookup_cons_self, Option.some_or]
    · have hother : (key == k) = false := by simpa using hkey
      rw [lookup_insertEntry_of_ne hkey]
      simp only [List.lookup_cons, hother, List.lookup_nil, Option.none_or]

theorem lookup_sortEntries (entries : List (String × α)) (key : String) :
    (sortEntries entries).lookup key = entries.reverse.lookup key := by
  rw [sortEntries, lookup_foldl_insertEntry, List.lookup_nil, Option.or_none]

/-- Under keys that differ no entry is lost when they are inserted one after another. -/
theorem perm_sortEntries (h : (entries.map Prod.fst).Nodup) :
    (sortEntries entries).Perm entries := by
  have hreverse : (entries.reverse.map Prod.fst).Nodup := by
    rwa [List.map_reverse, List.nodup_reverse]
  have hsorted := sortedKeys_sortEntries entries
  apply (List.perm_ext_iff_of_nodup hsorted.nodup.of_map h.of_map).2
  intro e
  obtain ⟨key, value⟩ := e
  rw [← lookup_eq_some_iff_mem hsorted, lookup_sortEntries,
    lookup_eq_some_iff_mem_of_nodup hreverse, List.mem_reverse]

theorem lookup_eraseEntry_self (key : String) (entries : List (String × α)) :
    (eraseEntry key entries).lookup key = none := by
  apply List.lookup_eq_none_iff.2
  intro e he
  have hne : e.1 ≠ key := by simpa [eraseEntry] using (List.mem_filter.1 he).2
  simpa using Ne.symm hne

theorem lookup_eraseEntry_of_ne {key other : String} (h : other ≠ key)
    (entries : List (String × α)) :
    (eraseEntry key entries).lookup other = entries.lookup other := by
  induction entries with
  | nil => rfl
  | cons first rest ih =>
    obtain ⟨k, v⟩ := first
    by_cases hk : k = key
    · subst hk
      have hother : (other == k) = false := by simpa using h
      have herase : eraseEntry k ((k, v) :: rest) = eraseEntry k rest := by simp [eraseEntry]
      simp only [herase, ih, List.lookup_cons, hother]
    · have herase : eraseEntry key ((k, v) :: rest) = (k, v) :: eraseEntry key rest := by
        simp [eraseEntry, hk]
      simp only [herase, List.lookup_cons, ih]

/-- Ascending entries with the same lookups are the same entries. -/
theorem eq_of_lookup_eq {a b : List (String × α)} (ha : SortedKeys a) (hb : SortedKeys b)
    (h : ∀ key, a.lookup key = b.lookup key) : a = b := by
  have hperm : a.Perm b := by
    have hna : a.Nodup := List.Nodup.of_map _ ha.nodup
    have hnb : b.Nodup := List.Nodup.of_map _ hb.nodup
    apply (List.perm_ext_iff_of_nodup hna hnb).2
    intro e
    obtain ⟨key, value⟩ := e
    rw [← lookup_eq_some_iff_mem ha, ← lookup_eq_some_iff_mem hb, h key]
  refine List.Perm.eq_of_pairwise ?_ (List.pairwise_map.1 ha) (List.pairwise_map.1 hb) hperm
  intro e f _ _ hlt hgt
  exact absurd hgt (String.lt_asymm hlt)

def setEntry (key : String) (value : Option α) (entries : List (String × α)) :
    List (String × α) :=
  match value with
  | some v => insertEntry key v entries
  | none => eraseEntry key entries

theorem sortedKeys_setEntry {key : String} {value : Option α} (h : SortedKeys entries) :
    SortedKeys (setEntry key value entries) := by
  cases value with
  | none => exact sortedKeys_eraseEntry h
  | some v => exact sortedKeys_insertEntry h

@[simp] theorem lookup_setEntry_self (key : String) (value : Option α)
    (entries : List (String × α)) : (setEntry key value entries).lookup key = value := by
  cases value with
  | none => exact lookup_eraseEntry_self key entries
  | some v => exact lookup_insertEntry_self key v entries

theorem lookup_setEntry_of_ne {key other : String} (h : other ≠ key) (value : Option α)
    (entries : List (String × α)) :
    (setEntry key value entries).lookup other = entries.lookup other := by
  cases value with
  | none => exact lookup_eraseEntry_of_ne h entries
  | some v => exact lookup_insertEntry_of_ne h v entries

/-- Binding a key to what it is bound to changes nothing. -/
theorem setEntry_lookup (h : SortedKeys entries) (key : String) :
    setEntry key (entries.lookup key) entries = entries := by
  apply eq_of_lookup_eq (sortedKeys_setEntry h) h
  intro other
  by_cases hother : other = key
  · rw [hother, lookup_setEntry_self]
  · exact lookup_setEntry_of_ne hother _ entries

theorem insertEntry_eq_self {key : String} {value : α} (hsorted : SortedKeys entries)
    (h : entries.lookup key = some value) : insertEntry key value entries = entries := by
  have hself := setEntry_lookup hsorted key
  rwa [h] at hself

/-- Of two values bound to one key the later stays. -/
theorem insertEntry_insertEntry {key : String} (earlier later : α) (h : SortedKeys entries) :
    insertEntry key later (insertEntry key earlier entries) = insertEntry key later entries := by
  refine eq_of_lookup_eq (sortedKeys_insertEntry (sortedKeys_insertEntry h))
    (sortedKeys_insertEntry h) fun other => ?_
  by_cases hother : other = key
  · rw [hother, lookup_insertEntry_self, lookup_insertEntry_self]
  · simp only [lookup_insertEntry_of_ne hother]

def setEntries (value : String → Option α) (keys : List String) (entries : List (String × α)) :
    List (String × α) :=
  keys.foldl (fun entries key => setEntry key (value key) entries) entries

theorem sortedKeys_setEntries {value : String → Option α} {keys : List String}
    (h : SortedKeys entries) : SortedKeys (setEntries value keys entries) := by
  induction keys generalizing entries with
  | nil => exact h
  | cons key rest ih => exact ih (sortedKeys_setEntry h)

theorem lookup_setEntries (value : String → Option α) (keys : List String)
    (entries : List (String × α)) (key : String) :
    (setEntries value keys entries).lookup key =
      if key ∈ keys then value key else entries.lookup key := by
  induction keys generalizing entries with
  | nil => rfl
  | cons first rest ih =>
    have hstep : setEntries value (first :: rest) entries =
        setEntries value rest (setEntry first (value first) entries) := rfl
    rw [hstep, ih]
    by_cases hfirst : key = first
    · rw [hfirst, lookup_setEntry_self, ite_self, if_pos (List.mem_cons_self ..)]
    · rw [lookup_setEntry_of_ne hfirst]
      simp [hfirst]

def eraseEntries (names : List String) (entries : List (String × α)) : List (String × α) :=
  entries.filter (·.1 ∉ names)

theorem sortedKeys_eraseEntries {names : List String} (h : SortedKeys entries) :
    SortedKeys (eraseEntries names entries) :=
  List.Pairwise.sublist (List.filter_sublist.map _) h

theorem lookup_eraseEntries (names : List String) (entries : List (String × α)) (key : String) :
    (eraseEntries names entries).lookup key = if key ∈ names then none else entries.lookup key := by
  induction entries with
  | nil => exact (ite_self _).symm
  | cons first rest ih =>
    obtain ⟨k, v⟩ := first
    by_cases hk : k ∈ names
    · have herase : eraseEntries names ((k, v) :: rest) = eraseEntries names rest := by
        simp [eraseEntries, hk]
      rw [herase, ih]
      split
      · rfl
      · rename_i hkey
        have hne : key ≠ k := by
          rintro rfl
          exact hkey hk
        have hother : (key == k) = false := by simpa using hne
        simp only [List.lookup_cons, hother]
    · have herase : eraseEntries names ((k, v) :: rest) = (k, v) :: eraseEntries names rest := by
        simp [eraseEntries, hk]
      rw [herase]
      by_cases hkey : key = k
      · rw [hkey, List.lookup_cons_self, List.lookup_cons_self, if_neg hk]
      · have hother : (key == k) = false := by simpa using hkey
        simp only [List.lookup_cons, hother, ih]

/-- Entries that agree outside of the names are the same without the names. -/
theorem eraseEntries_eq_of_agree {names : List String} {a b : List (String × α)}
    (ha : SortedKeys a) (hb : SortedKeys b) (h : ∀ key ∉ names, a.lookup key = b.lookup key) :
    eraseEntries names a = eraseEntries names b := by
  apply eq_of_lookup_eq (sortedKeys_eraseEntries ha) (sortedKeys_eraseEntries hb)
  intro key
  rw [lookup_eraseEntries, lookup_eraseEntries]
  split
  · rfl
  · exact h key ‹_›

namespace Dict

theorem ext_get? {d e : Dict α} (h : ∀ key, d.get? key = e.get? key) : d = e :=
  Dict.ext (eq_of_lookup_eq d.sorted e.sorted h)

theorem mem_of_get?_ofList {entries : List (String × α)} {key : String} {value : α}
    (h : (ofList entries).get? key = some value) : (key, value) ∈ entries :=
  mem_of_mem_sortEntries (mem_of_lookup_eq_some h)

theorem ofList_entries (d : Dict α) : ofList d.entries = d := by
  apply ext_get?
  intro key
  rw [get?, get?, ofList, lookup_sortEntries, lookup_reverse d.sorted]

theorem get?_ofList_eraseEntries (h : SortedKeys entries) (names : List String) (key : String) :
    (ofList (eraseEntries names entries)).get? key =
      if key ∈ names then none else entries.lookup key := by
  rw [get?, ofList, lookup_sortEntries, lookup_reverse (sortedKeys_eraseEntries h),
    lookup_eraseEntries]

theorem eq_empty_of_isEmpty {d : Dict α} (h : d.isEmpty = true) : d = ∅ :=
  Dict.ext (List.isEmpty_iff.1 h)

theorem isEmpty_iff_get? {d : Dict α} : d.isEmpty = true ↔ ∀ key, d.get? key = none := by
  constructor
  · intro h key
    rw [get?, List.isEmpty_iff.1 h, List.lookup_nil]
  · intro h
    apply List.isEmpty_iff.2
    apply List.eq_nil_iff_forall_not_mem.2
    rintro ⟨key, value⟩ hmem
    have hlookup := (lookup_eq_some_iff_mem d.sorted).2 hmem
    have hnone : d.entries.lookup key = none := h key
    rw [hnone] at hlookup
    contradiction

theorem entries_foldl_insert (written : List (String × α)) (d : Dict α) :
    (written.foldl (fun d (key, value) => d.insert key value) d).entries =
      written.foldl (fun sorted (key, value) => insertEntry key value sorted) d.entries := by
  induction written generalizing d with
  | nil => rfl
  | cons first rest ih => exact ih _

/-- Entries of another dictionary that are inserted are found before older ones. -/
theorem get?_foldl_insert (d e : Dict α) (key : String) :
    (e.entries.foldl (fun d (key, value) => d.insert key value) d).get? key =
      (e.get? key).or (d.get? key) := by
  rw [get?, entries_foldl_insert, lookup_foldl_insertEntry, lookup_reverse e.sorted]
  rfl

theorem get?_foldl_erase (d : Dict α) (names : List String) (key : String) :
    (names.foldl erase d).get? key = if key ∈ names then none else d.get? key := by
  induction names generalizing d with
  | nil => rfl
  | cons name rest ih =>
    rw [List.foldl_cons, ih]
    by_cases hkey : key = name
    · have herase : (d.erase name).get? key = none := by
        rw [hkey]
        exact lookup_eraseEntry_self name d.entries
      rw [herase, ite_self, if_pos (hkey ▸ List.mem_cons_self ..)]
    · have herase : (d.erase name).get? key = d.get? key :=
        lookup_eraseEntry_of_ne hkey d.entries
      rw [herase]
      simp [hkey]

end Dict

end ReconcileTrigger
