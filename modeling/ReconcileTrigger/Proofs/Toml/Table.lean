import Mathlib.Data.List.Nodup
import ReconcileTrigger.Proofs.Record
import ReconcileTrigger.Toml.Table

/-!
Tables put together from headers with entries behind them. A header opens a table at the end of what
there is, and the entries behind it go into that table one after another.
-/

namespace ReconcileTrigger.Toml

namespace Node

/-- The path leads to a part of a table, and `whole` is the table around a part. -/
def Focus (path : List String) (whole : Fields Node → Fields Node) : Prop :=
  ∀ change inner, change? change path (whole inner) = (change inner).map whole

section Focus

variable {path : List String} {whole : Fields Node → Fields Node} {before : Fields Node}
  {name : String}

theorem focus_nil : Focus [] fun entries => entries := by
  intro change inner
  rw [change?, Option.map_id']

/-- Into the table at the end. -/
theorem Focus.table (hwhole : Focus path whole) (h : before.lookup name = none) (origin : Origin) :
    Focus (name :: path) fun inner => before ++ [(name, .table origin (whole inner))] := by
  intro change inner
  rw [change?, Fields.lookup_append_cons h]
  simp only [hwhole change inner, Option.map_map, Fields.put_append_cons h]
  rfl

theorem changeLast?_append {α : Type} (change : α → Option α) (elements : List α) (last : α) :
    changeLast? change (elements ++ [last]) = (change last).map fun last => elements ++ [last] := by
  induction elements with
  | nil => rfl
  | cons e rest ih =>
    obtain ⟨next, more, heq⟩ : ∃ next more, rest ++ [last] = next :: more :=
      List.exists_cons_of_ne_nil (List.append_ne_nil_of_right_ne_nil _ (List.cons_ne_nil _ _))
    rw [heq] at ih
    rw [List.cons_append, heq, changeLast?, ih, Option.map_map]
    · rfl
    · exact nofun

/-- Into the last element of the list of tables at the end. -/
theorem Focus.last (hwhole : Focus path whole) (h : before.lookup name = none)
    (elements : List (Fields Node)) :
    Focus (name :: path) fun inner => before ++ [(name, .tables (elements ++ [whole inner]))] := by
  intro change inner
  rw [change?, Fields.lookup_append_cons h]
  simp only [changeLast?_append, hwhole change inner, Option.map_map, Fields.put_append_cons h]
  rfl

end Focus

end Node

def valueNodes (fields : Fields Document) : Fields Node :=
  fields.map fun (name, value) => (name, .value value)

def entryStatements (fields : Fields Document) : List Statement :=
  fields.map fun (name, value) => .entry ⟨[], name⟩ value

def sectionStatements (name : String) (fields : Fields Document) : List Statement :=
  .table ⟨[], name⟩ :: entryStatements fields

def elementStatements (table name : String) (elements : List (Fields Document)) : List Statement :=
  elements.flatMap fun fields => .element ⟨[table], name⟩ :: entryStatements fields

section Steps

/-- Statements go on from where those before them have come. -/
theorem foldlM_append_of_eq_some {σ α : Type} {step : σ → α → Option σ} {s t : σ} {l : List α}
    (h : l.foldlM step s = some t) (more : List α) :
    (l ++ more).foldlM step s = more.foldlM step t := by
  rw [List.foldlM_append, h]
  rfl

variable {path : List String} {root before inner : Fields Node} {fields : Fields Document}
  {table name : String}

theorem foldlM_entryStatements {whole : Fields Node → Fields Node} (hwhole : Node.Focus path whole)
    (h : ((inner ++ valueNodes fields).map Prod.fst).Nodup) :
    (entryStatements fields).foldlM Draft.step? ⟨whole inner, path⟩ =
      some ⟨whole (inner ++ valueNodes fields), path⟩ := by
  induction fields generalizing inner with
  | nil => simp [entryStatements, valueNodes]
  | cons e rest ih =>
    obtain ⟨name, value⟩ := e
    have hfresh : inner.lookup name = none := Fields.lookup_eq_none_of_nodup h
    have hstep : Draft.step? ⟨whole inner, path⟩ (.entry ⟨[], name⟩ value) =
        some ⟨whole (inner ++ [(name, .value value)]), path⟩ := by
      rw [Draft.step?, hwhole]
      simp [Node.assign?, hfresh, Fields.put_eq_append hfresh]
    have hjoin : inner ++ valueNodes ((name, value) :: rest) =
        inner ++ [(name, .value value)] ++ valueNodes rest := by
      simp [valueNodes]
    rw [hjoin] at h ⊢
    rw [entryStatements, List.map_cons, List.foldlM_cons, hstep]
    exact ih h

theorem keys_valueNodes (fields : Fields Document) :
    (valueNodes fields).map Prod.fst = fields.map Prod.fst := by
  rw [valueNodes, List.map_map]
  rfl

/-- A section adds its table at the end. -/
theorem foldlM_sectionStatements (hfresh : root.lookup name = none)
    (h : (fields.map Prod.fst).Nodup) :
    (sectionStatements name fields).foldlM Draft.step? ⟨root, path⟩ =
      some ⟨root ++ [(name, .table .header (valueNodes fields))], [name]⟩ := by
  have hheader : Draft.step? ⟨root, path⟩ (.table ⟨[], name⟩) =
      some ⟨root ++ [(name, .table .header [])], [name]⟩ := by
    simp [Draft.step?, Node.change?, Node.openTable?, hfresh, Fields.put_eq_append hfresh]
  have hnodup : (([] ++ valueNodes fields).map Prod.fst).Nodup := by
    rwa [List.nil_append, keys_valueNodes]
  rw [sectionStatements, List.foldlM_cons, hheader]
  exact foldlM_entryStatements (Node.focus_nil.table hfresh .header) hnodup

def sectionNodes (sections : List (String × Fields Document)) : Fields Node :=
  sections.map fun (name, fields) => (name, .table .header (valueNodes fields))

/-- Sections add their tables one after another. -/
theorem foldlM_sections {sections : List (String × Fields Document)}
    (hfields : ∀ e ∈ sections, (e.2.map Prod.fst).Nodup)
    (hnodup : ((root ++ sectionNodes sections).map Prod.fst).Nodup) :
    ∃ path', (sections.flatMap fun e => sectionStatements e.1 e.2).foldlM Draft.step?
      ⟨root, path⟩ = some ⟨root ++ sectionNodes sections, path'⟩ := by
  induction sections generalizing root path with
  | nil => exact ⟨path, by rw [sectionNodes, List.map_nil, List.append_nil]; rfl⟩
  | cons e rest ih =>
    obtain ⟨name, fields⟩ := e
    obtain ⟨hsection, hrest⟩ := List.forall_mem_cons.1 hfields
    rw [sectionNodes, List.map_cons] at hnodup ⊢
    have hfresh : root.lookup name = none := Fields.lookup_eq_none_of_nodup hnodup
    rw [List.append_cons] at hnodup ⊢
    obtain ⟨path', hread⟩ := @ih [name] _ hrest hnodup
    refine ⟨path', ?_⟩
    rw [List.flatMap_cons,
      foldlM_append_of_eq_some (foldlM_sectionStatements hfresh hsection)]
    exact hread

/-- A list of tables at the end, which is not there as long as it is empty. -/
def listAtEnd (name : String) : List (Fields Node) → Fields Node
  | [] => []
  | elements => [(name, .tables elements)]

theorem listAtEnd_append (name : String) (elements : List (Fields Node)) (last : Fields Node) :
    listAtEnd name (elements ++ [last]) = [(name, .tables (elements ++ [last]))] := by
  cases elements <;> rfl

theorem addElement?_listAtEnd (hfresh : inner.lookup name = none)
    (elements : List (Fields Node)) :
    Node.addElement? name (inner ++ listAtEnd name elements) =
      some (inner ++ listAtEnd name (elements ++ [[]])) := by
  rw [listAtEnd_append, Node.addElement?]
  cases elements with
  | nil =>
    rw [listAtEnd, List.append_nil, hfresh]
    exact congrArg some (Fields.put_eq_append hfresh _)
  | cons first rest =>
    rw [listAtEnd, Fields.lookup_append_cons hfresh]
    · exact congrArg some (Fields.put_append_cons hfresh _ _)
    · exact nofun

/-- The headers of a list add its elements at the end of the table that is opened last. -/
theorem foldlM_elementStatements {origin : Origin} (hbefore : before.lookup table = none)
    {earlier : List (Fields Node)} {elements : List (Fields Document)}
    (hinner : elements ≠ [] → inner.lookup name = none)
    (h : ∀ fields ∈ elements, (fields.map Prod.fst).Nodup) :
    ∃ path', (elementStatements table name elements).foldlM Draft.step?
        ⟨before ++ [(table, .table origin (inner ++ listAtEnd name earlier))], path⟩ =
      some ⟨before ++ [(table, .table origin
        (inner ++ listAtEnd name (earlier ++ elements.map valueNodes)))], path'⟩ := by
  induction elements generalizing earlier path with
  | nil => exact ⟨path, by rw [List.map_nil, List.append_nil]; rfl⟩
  | cons fields rest ih =>
    obtain ⟨hfields, hrest⟩ := List.forall_mem_cons.1 h
    -- the name may stand for an empty list of its own where there are no elements
    have hfresh := hinner (List.cons_ne_nil fields rest)
    have hheader : Draft.step?
        ⟨before ++ [(table, .table origin (inner ++ listAtEnd name earlier))], path⟩
        (.element ⟨[table], name⟩) =
        some ⟨before ++ [(table, .table origin (inner ++ listAtEnd name (earlier ++ [[]])))],
          [table, name]⟩ := by
      have hfocus := (Node.focus_nil.table hbefore origin) (Node.addElement? name)
        (inner ++ listAtEnd name earlier)
      simp only [Draft.step?, hfocus, addElement?_listAtEnd hfresh]
      rfl
    have hnodup : (([] ++ valueNodes fields).map Prod.fst).Nodup := by
      rwa [List.nil_append, keys_valueNodes]
    have hfocus := (Node.focus_nil.last hfresh earlier).table hbefore origin
    have hentries := foldlM_entryStatements hfocus hnodup
    simp only [← listAtEnd_append] at hentries
    rw [List.nil_append] at hentries
    obtain ⟨path', hread⟩ := @ih [table, name] (earlier ++ [valueNodes fields])
      (fun _ => hfresh) hrest
    rw [List.append_assoc, List.singleton_append] at hread
    refine ⟨path', ?_⟩
    rw [elementStatements, List.flatMap_cons, List.cons_append, List.foldlM_cons, hheader,
      Option.bind_eq_bind, Option.bind_some, foldlM_append_of_eq_some hentries]
    exact hread

end Steps

namespace Node

theorem documentEntries_append (a b : Fields Node) :
    documentEntries (a ++ b) = documentEntries a ++ documentEntries b := by
  induction a with
  | nil => rfl
  | cons e rest ih =>
    rw [List.cons_append, documentEntries, documentEntries, ih, List.cons_append]

theorem documentEntries_valueNodes (fields : Fields Document) :
    documentEntries (valueNodes fields) = fields := by
  induction fields with
  | nil => rfl
  | cons e rest ih =>
    rw [valueNodes, List.map_cons, documentEntries, toDocument]
    exact congrArg _ ih

theorem documentElements_valueNodes (elements : List (Fields Document)) :
    documentElements (elements.map valueNodes) = elements.map .table := by
  induction elements with
  | nil => rfl
  | cons fields rest ih =>
    rw [List.map_cons, documentElements, documentEntries_valueNodes, ih, List.map_cons]

end Node

end ReconcileTrigger.Toml
