import Mathlib.Data.List.Duplicate
import ReconcileTrigger.Catalog
import ReconcileTrigger.Proofs.Settings.Validation

/-!
The kinds of a catalog. They make one iff each has a name of its own, so a name finds the kind that
has it. The kinds of legal settings make one iff the builtin ones differ. Whatever is found in a
catalog made from the settings was configured, and the desired state of a primary kind is in the
same field for all of them.
-/

namespace ReconcileTrigger.Catalog

theorem nameCheck_fault? : NameCheck Kind.name fault? where
  nil _ := rfl
  cons seen k rest := by
    simp only [fault?]
    split
    · rfl
    · split
      · rfl
      · rfl

theorem fault?_singleton_eq_none_iff {seen : List String} {k : Kind} :
    fault? seen [k] = none ↔ k.name ≠ "" ∧ k.name ∉ seen := by
  by_cases hname : k.name = ""
  · simp [fault?, hname]
  · simp [fault?, hname]

/-- Kinds are without a fault iff all of them have names, and none of them one seen before. -/
theorem fault?_eq_none_iff {seen : List String} {kinds : List Kind} :
    fault? seen kinds = none ↔
      (∀ k ∈ kinds, k.name ≠ "") ∧ Fresh seen (kinds.map Kind.name) :=
  nameCheck_fault?.eq_none_iff fun _ _ => fault?_singleton_eq_none_iff

/-- Why a kind has no name of its own behind kinds with the names `earlier`. -/
def IsFault (earlier : List String) (k : Kind) (e : Failure) : Prop :=
  k.name = "" ∧ e = .configuration "kind adapters need a kind name" ∨
  k.name ≠ "" ∧ k.name ∈ earlier ∧
    e = .configuration ("kind " ++ k.name ++ " registered more than once")

theorem fault?_singleton_eq_some_iff {seen : List String} {k : Kind} {e : Failure} :
    fault? seen [k] = some e ↔ IsFault seen k e := by
  by_cases hname : k.name = ""
  · simp [fault?, IsFault, hname, eq_comm]
  · simp [fault?, IsFault, hname, eq_comm]

/-- The failure is about the first kind at fault. -/
theorem fault?_nil_eq_some_iff {kinds : List Kind} {e : Failure} :
    fault? [] kinds = some e ↔ ∃ before k after, kinds = before ++ k :: after ∧
      fault? [] before = none ∧ IsFault (before.map Kind.name) k e := by
  rw [nameCheck_fault?.eq_some_iff]
  simp only [fault?_singleton_eq_some_iff, IsFault, List.append_nil, List.mem_reverse]

/-- Kinds that all have names can only be at fault by a name that is there twice. -/
theorem exists_duplicate_of_fault? {kinds : List Kind} {e : Failure}
    (hnames : ∀ k ∈ kinds, k.name ≠ "") (h : fault? [] kinds = some e) :
    ∃ name, List.Duplicate name (kinds.map Kind.name) ∧
      e = .configuration ("kind " ++ name ++ " registered more than once") := by
  obtain ⟨before, k, after, rfl, _, hfault⟩ := fault?_nil_eq_some_iff.1 h
  obtain ⟨hempty, _⟩ | ⟨_, hmem, he⟩ := hfault
  · exact absurd hempty (hnames k (List.mem_append_right _ (List.mem_cons_self ..)))
  · refine ⟨k.name, ?_, he⟩
    rw [List.map_append, List.map_cons, List.duplicate_iff_two_le_count, List.count_append,
      List.count_cons_self]
    have hearlier := List.count_pos_iff.2 hmem
    omega

theorem ofKinds_eq_ok_iff {kinds : List Kind} {c : Catalog} :
    ofKinds kinds = .ok c ↔ c = ⟨kinds⟩ ∧ fault? [] kinds = none := by
  unfold ofKinds
  split
  · rename_i h
    simp [h]
  · rename_i h
    simp [h, eq_comm]

theorem ofKinds_eq_error_iff {kinds : List Kind} {e : Failure} :
    ofKinds kinds = .error e ↔ fault? [] kinds = some e := by
  unfold ofKinds
  split
  · rename_i h
    simp [h]
  · rename_i h
    simp [h]

/-- In a catalog a name finds the kind that has it. -/
theorem find?_eq_some_iff {kinds : List Kind} {c : Catalog} (hc : ofKinds kinds = .ok c)
    {name : String} {k : Kind} : c.find? name = some k ↔ k ∈ kinds ∧ k.name = name := by
  obtain ⟨rfl, hfault⟩ := ofKinds_eq_ok_iff.1 hc
  exact find?_name_eq_some_iff (fresh_nil_left.1 (fault?_eq_none_iff.1 hfault).2)

def kindOfPrimary (apiGroup : String) (p : Settings.PrimaryKind) : Kind :=
  { Kind.primary p.kind apiGroup with tracksUpgrade := p.tracksUpgrade }

theorem configuredKinds_eq (k : Settings.Kinds) :
    configuredKinds k = k.primary.map (kindOfPrimary k.apiGroup) ++
      [.configObject k.configKind, .secret k.secretKind, .worker k.workerKind] :=
  rfl

theorem configuredKinds_names (k : Settings.Kinds) :
    (configuredKinds k).map Kind.name = k.primary.map Settings.PrimaryKind.kind ++ k.builtin := by
  rw [configuredKinds_eq, List.map_append, List.map_map]
  rfl

section Legal

variable {k : Settings.Kinds}

theorem name_ne_empty_of_legal (h : k.Legal) {kind : Kind} (hkind : kind ∈ configuredKinds k) :
    kind.name ≠ "" := by
  have hname : kind.name ∈ (configuredKinds k).map Kind.name := List.mem_map_of_mem hkind
  rw [configuredKinds_names, List.mem_append, List.mem_map] at hname
  apply Settings.ne_empty_of_not_blank
  rcases hname with ⟨p, hp, hpname⟩ | hbuiltin
  · rw [← hpname]
    exact h.primary_not_blank p hp
  · exact h.builtin_not_blank _ hbuiltin

theorem primary_disjoint_builtin (h : k.Legal) :
    (k.primary.map Settings.PrimaryKind.kind).Disjoint k.builtin := by
  intro name hprimary
  obtain ⟨p, hp, rfl⟩ := List.mem_map.1 hprimary
  exact h.primary_not_builtin p hp

/-- Legal kinds are accepted iff the builtin ones differ. -/
theorem fault?_eq_none_iff_of_legal (h : k.Legal) :
    fault? [] (configuredKinds k) = none ↔ k.builtin.Nodup := by
  rw [fault?_eq_none_iff, fresh_nil_left, configuredKinds_names, List.nodup_append']
  constructor
  · rintro ⟨_, _, hbuiltin, _⟩
    exact hbuiltin
  · intro hbuiltin
    exact ⟨fun _ => name_ne_empty_of_legal h, h.primary_nodup, hbuiltin, primary_disjoint_builtin h⟩

/-- What is wrong with legal kinds is a builtin kind that is there twice. -/
theorem fault?_eq_some_of_legal (h : k.Legal) {e : Failure}
    (he : fault? [] (configuredKinds k) = some e) :
    ∃ name, List.Duplicate name k.builtin ∧
      e = .configuration ("kind " ++ name ++ " registered more than once") := by
  obtain ⟨name, htwice, he⟩ := exists_duplicate_of_fault? (fun _ => name_ne_empty_of_legal h) he
  refine ⟨name, ?_, he⟩
  rw [configuredKinds_names, List.duplicate_iff_two_le_count, List.count_append] at htwice
  rw [List.duplicate_iff_two_le_count]
  -- a primary name is there once among the primary ones and never among the builtin ones
  have honce : (k.primary.map Settings.PrimaryKind.kind).count name ≤ 1 :=
    List.nodup_iff_count_le_one.1 h.primary_nodup name
  by_cases hprimary : name ∈ k.primary.map Settings.PrimaryKind.kind
  · have hnone : k.builtin.count name = 0 :=
      List.count_eq_zero.2 (primary_disjoint_builtin h hprimary)
    omega
  · have hnone := List.count_eq_zero.2 hprimary
    omega

end Legal

/-- The kinds of the primary role are those that are listed. -/
theorem mem_configuredKinds_primary_iff {settings : Settings.Kinds} {k : Kind} :
    (k ∈ configuredKinds settings ∧ k.role = .primary) ↔
      ∃ p ∈ settings.primary, k = kindOfPrimary settings.apiGroup p := by
  rw [configuredKinds_eq, List.mem_append, List.mem_map]
  constructor
  · rintro ⟨⟨p, hp, rfl⟩ | hbuiltin, hrole⟩
    · exact ⟨p, hp, rfl⟩
    · rcases List.mem_cons.1 hbuiltin with rfl | hbuiltin
      · contradiction
      · rcases List.mem_cons.1 hbuiltin with rfl | hbuiltin
        · contradiction
        · obtain rfl := List.mem_singleton.1 hbuiltin
          contradiction
  · rintro ⟨p, hp, rfl⟩
    exact ⟨.inl ⟨p, hp, rfl⟩, rfl⟩

/-- A name finds a kind of the primary role iff it is listed as one. -/
theorem find?_primary_iff {s : Settings} {c : Catalog} (hc : ofSettings s = .ok c) {name : String}
    {k : Kind} : (c.find? name = some k ∧ k.role = .primary) ↔
      ∃ p ∈ s.kinds.primary, p.kind = name ∧ k = kindOfPrimary s.kinds.apiGroup p := by
  rw [find?_eq_some_iff hc, and_right_comm, mem_configuredKinds_primary_iff]
  constructor
  · rintro ⟨⟨p, hp, rfl⟩, hname⟩
    exact ⟨p, hp, hname, rfl⟩
  · rintro ⟨p, hp, hname, rfl⟩
    exact ⟨⟨p, hp, rfl⟩, hname⟩

/-- The desired state of an object of a primary kind is its `spec`. -/
theorem spec?_of_ofSettings {s : Settings} {c : Catalog} (hc : ofSettings s = .ok c)
    {name : String} {k : Kind} (hfind : c.find? name = some k) (hrole : k.role = .primary)
    (o : Object) : k.spec? o = o.field? "spec" := by
  obtain ⟨p, _, _, rfl⟩ := (find?_primary_iff hc).1 ⟨hfind, hrole⟩
  rfl

end ReconcileTrigger.Catalog
