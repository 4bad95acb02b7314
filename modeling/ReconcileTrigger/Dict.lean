/-!
Dictionaries with text keys, kept as entries in ascending order of their keys. Texts are
ordered by code points, which is also the order of their UTF-8 bytes. The operations on bare
entry lists serve the members of documents, the type `Dict` serves labels and other maps of
objects.
-/

namespace ReconcileTrigger

variable {α β : Type}

/-- The keys ascend strictly, so no key occurs twice. -/
def SortedKeys (entries : List (String × α)) : Prop :=
  (entries.map Prod.fst).Pairwise (· < ·)

def insertEntry (key : String) (value : α) : List (String × α) → List (String × α)
  | [] => [(key, value)]
  | (k, v) :: rest =>
    if key < k then (key, value) :: (k, v) :: rest
    else if key = k then (key, value) :: rest
    else (k, v) :: insertEntry key value rest

def eraseEntry (key : String) (entries : List (String × α)) : List (String × α) :=
  entries.filter (·.1 ≠ key)

/-- The entries inserted one after another, so the last of equal keys wins. -/
def sortEntries (entries : List (String × α)) : List (String × α) :=
  entries.foldl (fun sorted (key, value) => insertEntry key value sorted) []

theorem sortedKeys_nil : SortedKeys ([] : List (String × α)) :=
  List.Pairwise.nil

theorem sortedKeys_cons {k : String} {v : α} {rest : List (String × α)} :
    SortedKeys ((k, v) :: rest) ↔ (∀ e ∈ rest, k < e.1) ∧ SortedKeys rest := by
  simp [SortedKeys]

theorem mem_insertEntry {key : String} {value : α} {entries : List (String × α)}
    {e : String × α} (h : e ∈ insertEntry key value entries) :
    e = (key, value) ∨ e ∈ entries := by
  induction entries with
  | nil => simpa [insertEntry] using h
  | cons first rest ih =>
    obtain ⟨k, v⟩ := first
    simp only [insertEntry] at h
    split at h
    · simpa using h
    · split at h
      · rcases List.mem_cons.1 h with h | h
        · exact .inl h
        · exact .inr (List.mem_cons_of_mem _ h)
      · rcases List.mem_cons.1 h with h | h
        · exact .inr (by simp [h])
        · rcases ih h with h | h
          · exact .inl h
          · exact .inr (List.mem_cons_of_mem _ h)

private theorem lt_of_not_lt_of_ne {a b : String} (hlt : ¬ a < b) (hne : a ≠ b) : b < a :=
  Decidable.byContradiction fun h => hne (String.le_antisymm h hlt)

theorem sortedKeys_insertEntry {key : String} {value : α} {entries : List (String × α)}
    (h : SortedKeys entries) : SortedKeys (insertEntry key value entries) := by
  induction entries with
  | nil => simp [insertEntry, SortedKeys]
  | cons first rest ih =>
    obtain ⟨k, v⟩ := first
    obtain ⟨hfirst, hrest⟩ := sortedKeys_cons.1 h
    simp only [insertEntry]
    split
    · rename_i hlt
      refine sortedKeys_cons.2 ⟨fun e he => ?_, h⟩
      rcases List.mem_cons.1 he with he | he
      · simpa [he] using hlt
      · exact String.lt_trans hlt (hfirst e he)
    · rename_i hlt
      split
      · rename_i heq
        subst heq
        exact sortedKeys_cons.2 ⟨hfirst, hrest⟩
      · rename_i hne
        refine sortedKeys_cons.2 ⟨fun e he => ?_, ih hrest⟩
        rcases mem_insertEntry he with he | he
        · simpa [he] using lt_of_not_lt_of_ne hlt hne
        · exact hfirst e he

theorem sortedKeys_eraseEntry {key : String} {entries : List (String × α)}
    (h : SortedKeys entries) : SortedKeys (eraseEntry key entries) :=
  List.Pairwise.sublist (List.filter_sublist.map _) h

private theorem sortedKeys_foldl {entries sorted : List (String × α)} (h : SortedKeys sorted) :
    SortedKeys
      (entries.foldl (fun sorted (key, value) => insertEntry key value sorted) sorted) := by
  induction entries generalizing sorted with
  | nil => exact h
  | cons first rest ih => exact ih (sortedKeys_insertEntry h)

theorem sortedKeys_sortEntries (entries : List (String × α)) :
    SortedKeys (sortEntries entries) :=
  sortedKeys_foldl sortedKeys_nil

theorem lookup_insertEntry_self (key : String) (value : α) (entries : List (String × α)) :
    (insertEntry key value entries).lookup key = some value := by
  induction entries with
  | nil => simp [insertEntry]
  | cons first rest ih =>
    obtain ⟨k, v⟩ := first
    simp only [insertEntry]
    split
    · simp
    · split
      · simp
      · rename_i hne
        have hkey : (key == k) = false := by simpa using hne
        simp [List.lookup_cons, hkey, ih]

theorem lookup_insertEntry_of_ne {key other : String} (h : other ≠ key) (value : α)
    (entries : List (String × α)) :
    (insertEntry key value entries).lookup other = entries.lookup other := by
  have hother : (other == key) = false := by simpa using h
  induction entries with
  | nil => simp [insertEntry, List.lookup_cons, hother]
  | cons first rest ih =>
    obtain ⟨k, v⟩ := first
    simp only [insertEntry]
    split
    · simp [List.lookup_cons, hother]
    · split
      · rename_i heq
        subst heq
        simp [List.lookup_cons, hother]
      · simp only [List.lookup_cons]
        split
        · rfl
        · exact ih

structure Dict (α : Type) where
  entries : List (String × α)
  sorted : SortedKeys entries

namespace Dict

@[ext] theorem ext {d e : Dict α} (h : d.entries = e.entries) : d = e := by
  cases d; cases e; congr

instance [DecidableEq α] : DecidableEq (Dict α) := fun d e =>
  if h : d.entries = e.entries then isTrue (Dict.ext h)
  else isFalse fun heq => h (congrArg entries heq)

def empty : Dict α :=
  ⟨[], sortedKeys_nil⟩

instance : EmptyCollection (Dict α) := ⟨empty⟩

instance : Inhabited (Dict α) := ⟨empty⟩

def ofList (entries : List (String × α)) : Dict α :=
  ⟨sortEntries entries, sortedKeys_sortEntries entries⟩

def isEmpty (d : Dict α) : Bool :=
  d.entries.isEmpty

def get? (d : Dict α) (key : String) : Option α :=
  d.entries.lookup key

def contains (d : Dict α) (key : String) : Bool :=
  (d.get? key).isSome

def keys (d : Dict α) : List String :=
  d.entries.map Prod.fst

def insert (d : Dict α) (key : String) (value : α) : Dict α :=
  ⟨insertEntry key value d.entries, sortedKeys_insertEntry d.sorted⟩

def erase (d : Dict α) (key : String) : Dict α :=
  ⟨eraseEntry key d.entries, sortedKeys_eraseEntry d.sorted⟩

@[simp] theorem get?_insert_self (d : Dict α) (key : String) (value : α) :
    (d.insert key value).get? key = some value :=
  lookup_insertEntry_self key value d.entries

theorem get?_insert_of_ne (d : Dict α) {key other : String} (h : other ≠ key) (value : α) :
    (d.insert key value).get? other = d.get? other :=
  lookup_insertEntry_of_ne h value d.entries

end Dict

abbrev NameSet := Dict Unit

def NameSet.ofList (names : List String) : NameSet :=
  Dict.ofList (names.map (·, ()))

end ReconcileTrigger
