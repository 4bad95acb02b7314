import ReconcileTrigger.Proofs.Settings.Record
import ReconcileTrigger.Proofs.Toml.Statements
import ReconcileTrigger.Proofs.Toml.Table
import ReconcileTrigger.Settings.Written

/-!
The text that settings are written as. Each line is a statement, whatever the texts in it are, and
the statements make the document with every field.
-/

namespace ReconcileTrigger.Settings

open Toml

/-- From two elements on a list has a line for each of them. -/
theorem toList_quotedList_lines (a b : String) (rest : List String) :
    (quotedList (a :: b :: rest)).toList =
      '[' :: '\n' :: ((a :: b :: rest).flatMap elementLine ++ [']']) := by
  have helement (s : String) : ("    " ++ quoted s ++ ",\n").toList = elementLine s := by
    simp [elementLine]
  have hlines : quotedList (a :: b :: rest) = "[\n" ++
      String.join ((a :: b :: rest).map fun s => "    " ++ quoted s ++ ",\n") ++ "]" := rfl
  rw [hlines, String.toList_append, String.toList_append, String.toList_join]
  simp only [List.flatMap_map, helement]
  rfl

theorem writesValue_quotedList (values : List String) :
    WritesValue (quotedList values).toList (textList values) := by
  cases values with
  | nil => exact writesValue_emptyList
  | cons a values =>
    cases values with
    | nil =>
      have hchars : (quotedList [a]).toList = '[' :: ((quoted a).toList ++ [']']) := by
        simp [quotedList]
      rw [hchars]
      exact writesValue_singleton a
    | cons b rest =>
      rw [toList_quotedList_lines]
      exact writesValue_lines (a :: b :: rest)

/-- An empty line between two parts writes nothing. -/
theorem WritesLines.intercalate {parts : List (List Char)} {statements : List (List Statement)}
    (h : List.Forall₂ WritesLines parts statements) :
    WritesLines (['\n'].intercalate parts) statements.flatten := by
  induction h with
  | nil => exact .nil
  | @cons a s parts statements ha hrest ih =>
    cases hrest with
    | nil =>
      rw [List.intercalate_singleton, List.flatten_cons, List.flatten_nil, List.append_nil]
      exact ha
    | cons hb hrest =>
      rw [List.intercalate_cons_cons, List.append_assoc, List.flatten_cons]
      exact WritesLines.append ha (.blank ih)

def WritesFields (header : Statement) (text : String) (fields : Fields Document) : Prop :=
  WritesLines text.toList (header :: entryStatements fields)

namespace WritesFields

variable {header : Statement} {text value : String} {fields : Fields Document} {d : Document}

theorem header_table (text name : String) (h : IsBare name.toList)
    (htext : text.toList = '[' :: (name.toList ++ [']']) ++ ['\n']) :
    WritesFields (.table ⟨[], name⟩) text [] := by
  have hline := WritesLines.line (writesStatement_table h)
  rwa [String.ofList_toList, ← htext] at hline

theorem header_element (text table name : String) (htable : IsBare table.toList)
    (h : IsBare name.toList)
    (htext : text.toList = '[' :: '[' :: (table.toList ++ '.' :: (name.toList ++ [']', ']'])) ++
      ['\n']) :
    WritesFields (.element ⟨[table], name⟩) text [] := by
  have hline := WritesLines.line (writesStatement_element htable h)
  rwa [String.ofList_toList, String.ofList_toList, ← htext] at hline

/-- One more line is one more field. -/
theorem line (hfields : WritesFields header text fields) (key : String) (h : IsBare key.toList)
    (hvalue : WritesValue value.toList d) :
    WritesFields header (text ++ line key value) (fields ++ [(key, d)]) := by
  have hline := WritesLines.line (writesStatement_entry h hvalue)
  have hchars : (Settings.line key value).toList =
      key.toList ++ ' ' :: '=' :: ' ' :: value.toList ++ ['\n'] := by
    simp [Settings.line]
  rw [String.ofList_toList, ← hchars] at hline
  have happend := WritesLines.append hfields hline
  rw [← String.toList_append] at happend
  rw [WritesFields, entryStatements, List.map_append]
  exact happend

/-- A line that stands there on a condition only. -/
theorem lineIf (hfields : WritesFields header text fields) (condition : Bool) (key : String)
    (h : IsBare key.toList) (hvalue : WritesValue value.toList d) :
    WritesFields header (text ++ if condition then Settings.line key value else "")
      (fields ++ if condition then [(key, d)] else []) := by
  cases condition with
  | true => exact hfields.line key h hvalue
  | false =>
    rw [if_neg Bool.false_ne_true, if_neg Bool.false_ne_true, String.append_empty, List.append_nil]
    exact hfields

end WritesFields

section Sections

theorem writesFields_labels (l : Labels) :
    WritesFields (.table ⟨[], "labels"⟩) l.written l.fields :=
  WritesFields.header_table "[labels]\n" "labels" (by decide) rfl
    |>.line "do_not_reconcile_key" (by decide) (writesValue_quoted l.doNotReconcileKey)
    |>.line "do_not_reconcile_value" (by decide) (writesValue_quoted l.doNotReconcileValue)
    |>.line "version_key" (by decide) (writesValue_quoted l.versionKey)
    |>.line "canary_key" (by decide) (writesValue_quoted l.canaryKey)
    |>.line "canary_value" (by decide) (writesValue_quoted l.canaryValue)

theorem writesFields_exclusions (e : Exclusions) :
    WritesFields (.table ⟨[], "exclusions"⟩) e.written e.fields :=
  WritesFields.header_table "[exclusions]\n" "exclusions" (by decide) rfl
    |>.line "ephemeral_status_prefix" (by decide) (writesValue_quoted e.ephemeralStatusPrefix)
    |>.line "ephemeral_status_suffix" (by decide) (writesValue_quoted e.ephemeralStatusSuffix)
    |>.line "override_config_name" (by decide) (writesValue_quoted e.overrideConfigName)
    |>.line "ignorable_secret_names" (by decide) (writesValue_quotedList e.ignorableSecretNames)

theorem writesFields_kinds (k : Kinds) :
    WritesFields (.table ⟨[], "kinds"⟩) k.written k.ownFields := by
  have h := WritesFields.header_table "[kinds]\n" "kinds" (by decide) rfl
    |>.line "api_group" (by decide) (writesValue_quoted k.apiGroup)
    |>.lineIf k.primary.isEmpty "primary" (by decide) (writesValue_quotedList [])
    |>.line "config_kind" (by decide) (writesValue_quoted k.configKind)
    |>.line "secret_kind" (by decide) (writesValue_quoted k.secretKind)
    |>.line "worker_kind" (by decide) (writesValue_quoted k.workerKind)
  simp only [List.append_assoc] at h
  rwa [Kinds.ownFields, List.append_assoc]

theorem writesFields_primaryKind (p : PrimaryKind) :
    WritesFields (.element ⟨["kinds"], "primary"⟩) p.written p.fields :=
  WritesFields.header_element "[[kinds.primary]]\n" "kinds" "primary" (by decide) (by decide) rfl
    |>.line "kind" (by decide) (writesValue_quoted p.kind)
    |>.line "tracks_upgrade" (by decide) (writesValue_flag p.tracksUpgrade)

theorem writesFields_diff (d : Diff) : WritesFields (.table ⟨[], "diff"⟩) d.written d.fields :=
  WritesFields.header_table "[diff]\n" "diff" (by decide) rfl
    |>.line "volatile_fields" (by decide) (writesValue_quotedList d.volatileFields)

theorem writesFields_logging (l : Logging) :
    WritesFields (.table ⟨[], "logging"⟩) l.written l.fields :=
  WritesFields.header_table "[logging]\n" "logging" (by decide) rfl
    |>.line "level" (by decide) (writesValue_quoted l.level)

end Sections

def leadingSections (s : Settings) : List (String × Fields Document) :=
  [ ("labels", s.labels.fields),
    ("exclusions", s.exclusions.fields),
    ("kinds", s.kinds.ownFields) ]

def closingSections (s : Settings) : List (String × Fields Document) :=
  [("diff", s.diff.fields), ("logging", s.logging.fields)]

def sections (s : Settings) : List (List Statement) :=
  s.leadingSections.map (fun e => sectionStatements e.1 e.2) ++
    s.kinds.primary.map (fun p => .element ⟨["kinds"], "primary"⟩ :: entryStatements p.fields) ++
    s.closingSections.map (fun e => sectionStatements e.1 e.2)

theorem forall₂_writesLines (s : Settings) :
    List.Forall₂ (fun text statements => WritesLines text.toList statements)
      ([s.labels.written, s.exclusions.written, s.kinds.written] ++
        s.kinds.primary.map PrimaryKind.written ++ [s.diff.written, s.logging.written])
      s.sections := by
  have hprimary : List.Forall₂ (fun text statements => WritesLines text.toList statements)
      (s.kinds.primary.map PrimaryKind.written) (s.kinds.primary.map fun p =>
        .element ⟨["kinds"], "primary"⟩ :: entryStatements p.fields) := by
    rw [List.forall₂_map_left_iff, List.forall₂_map_right_iff, List.forall₂_same]
    exact fun p _ => writesFields_primaryKind p
  refine List.rel_append (List.rel_append ?_ hprimary) ?_
  · exact .cons (writesFields_labels s.labels)
      (.cons (writesFields_exclusions s.exclusions) (.cons (writesFields_kinds s.kinds) .nil))
  · exact .cons (writesFields_diff s.diff) (.cons (writesFields_logging s.logging) .nil)

theorem writesLines_written (s : Settings) : WritesLines s.written.toList s.sections.flatten := by
  rw [written, String.toList_intercalate]
  refine WritesLines.intercalate ?_
  rw [List.forall₂_map_left_iff]
  exact s.forall₂_writesLines

theorem nodup_ownFields (k : Kinds) : (k.ownFields.map Prod.fst).Nodup := by
  have h := k.nodup_fields
  rw [List.map_append] at h
  exact h.of_append_left

/-- The table of the kinds, once the headers of the primary ones are read. -/
theorem documentEntries_kinds (k : Kinds) :
    Node.documentEntries (valueNodes k.ownFields ++
      listAtEnd "primary" ((k.primary.map PrimaryKind.fields).map valueNodes)) =
      k.ownFields ++ k.primaryFields := by
  have hlist : Node.documentEntries
      (listAtEnd "primary" ((k.primary.map PrimaryKind.fields).map valueNodes)) =
      k.primaryFields := by
    rw [Kinds.primaryFields]
    cases hprimary : k.primary with
    | nil => rfl
    | cons p rest =>
      have helements : Node.documentElements
          (((p :: rest).map PrimaryKind.fields).map valueNodes) =
          (p :: rest).map fun p => .table p.fields := by
        rw [Node.documentElements_valueNodes, List.map_map]
        rfl
      exact congrArg (fun elements => [("primary", Document.list elements)]) helements
  rw [Node.documentEntries_append, Node.documentEntries_valueNodes, hlist]

def leadingNodes (s : Settings) : Fields Node :=
  sectionNodes [("labels", s.labels.fields), ("exclusions", s.exclusions.fields)] ++
    [("kinds", .table .header (valueNodes s.kinds.ownFields ++
      listAtEnd "primary" ((s.kinds.primary.map PrimaryKind.fields).map valueNodes)))]

/-- The headers of the primary kinds go into the table of the kinds. -/
theorem foldlM_primaryKinds (s : Settings) (path : List String) :
    ∃ path', (elementStatements "kinds" "primary"
        (s.kinds.primary.map PrimaryKind.fields)).foldlM Draft.step?
      ⟨sectionNodes s.leadingSections, path⟩ = some ⟨s.leadingNodes, path'⟩ := by
  have hnodup : ∀ fields ∈ s.kinds.primary.map PrimaryKind.fields,
      (fields.map Prod.fst).Nodup := by
    simp [PrimaryKind.fields]
  have hinner : s.kinds.primary.map PrimaryKind.fields ≠ [] →
      (valueNodes s.kinds.ownFields).lookup "primary" = none := by
    intro hne
    have hempty : s.kinds.primary ≠ [] := fun hnil => hne (by rw [hnil, List.map_nil])
    simp [valueNodes, Kinds.ownFields, hempty, List.lookup_cons]
  obtain ⟨path', hread⟩ := @foldlM_elementStatements path
    (sectionNodes [("labels", s.labels.fields), ("exclusions", s.exclusions.fields)])
    (valueNodes s.kinds.ownFields) "kinds" "primary" .header rfl []
    (s.kinds.primary.map PrimaryKind.fields) hinner hnodup
  rw [listAtEnd, List.append_nil] at hread
  exact ⟨path', hread⟩

/-- The statements make the document. -/
theorem fieldsOf?_sections (s : Settings) : fieldsOf? s.sections.flatten = some s.fields := by
  have hjoin : s.sections.flatten =
      s.leadingSections.flatMap (fun e => sectionStatements e.1 e.2) ++
        (elementStatements "kinds" "primary" (s.kinds.primary.map PrimaryKind.fields) ++
          s.closingSections.flatMap fun e => sectionStatements e.1 e.2) := by
    simp [sections, elementStatements, List.flatMap_def, Function.comp_def]
  obtain ⟨path₁, hleading⟩ := @foldlM_sections [] [] s.leadingSections
    (by simp [leadingSections, Labels.fields, Exclusions.fields, nodup_ownFields])
    (by simp [sectionNodes, leadingSections])
  obtain ⟨path₂, hprimary⟩ := s.foldlM_primaryKinds path₁
  obtain ⟨path₃, hclosing⟩ := @foldlM_sections path₂ s.leadingNodes s.closingSections
    (by simp [closingSections, Diff.fields, Logging.fields])
    (by simp [sectionNodes, leadingNodes, closingSections])
  rw [List.nil_append] at hleading
  rw [fieldsOf?, hjoin, foldlM_append_of_eq_some hleading, foldlM_append_of_eq_some hprimary,
    hclosing]
  simp only [Option.bind_eq_bind, Option.bind_some, leadingNodes, closingSections, sectionNodes,
    List.map_cons, List.map_nil, List.cons_append, List.nil_append, Node.documentEntries,
    Node.toDocument, Node.documentEntries_valueNodes, documentEntries_kinds]
  rfl

theorem exists_toList_written (s : Settings) : ∃ more, s.written.toList = '[' :: more := by
  have hhead : s.written.toList.head? = some '[' := by
    simp [written, Labels.written]
  exact List.head?_eq_some_iff.1 hhead

theorem dropMark_written (s : Settings) : dropMark s.written.toList = s.written.toList := by
  obtain ⟨more, hmore⟩ := s.exists_toList_written
  rw [hmore]
  rfl

/-- The text is read as the document. -/
theorem parse?_written (s : Settings) : Toml.parse? s.written = some s.fields := by
  simp only [Toml.parse?, dropMark_written,
    s.writesLines_written.scanStatements (Nat.lt_succ_self _), Option.bind_eq_bind,
    Option.bind_some, fieldsOf?_sections]

end ReconcileTrigger.Settings
