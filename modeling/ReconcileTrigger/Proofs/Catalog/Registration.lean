import ReconcileTrigger.Proofs.Catalog

/-!
Catalogs from kinds that are registered one after another. There is one iff every kind has a name,
and one of its own; if not, the failure is about the first kind that has none or repeats one. A
catalog finds every kind under its name and nothing under any other, as a dictionary does that the
kinds are entered into: none of them overwrites another one. Of settings it holds what they list,
the builtin kinds, and nothing else.
-/

namespace ReconcileTrigger.Catalog

variable {kinds : List Kind} {c : Catalog}

structure WellNamed (kinds : List Kind) : Prop where
  named : ∀ k ∈ kinds, k.name ≠ ""
  nodup : (kinds.map Kind.name).Nodup

theorem wellNamed_iff : WellNamed kinds ↔ fault? [] kinds = none := by
  rw [fault?_eq_none_iff, fresh_nil_left]
  exact ⟨fun h => ⟨h.named, h.nodup⟩, fun h => ⟨h.1, h.2⟩⟩

instance (kinds : List Kind) : Decidable (WellNamed kinds) :=
  decidable_of_iff' _ wellNamed_iff

theorem exists_ofKinds_iff : (∃ c, ofKinds kinds = .ok c) ↔ WellNamed kinds := by
  rw [wellNamed_iff]
  constructor
  · rintro ⟨c, hc⟩
    exact (ofKinds_eq_ok_iff.1 hc).2
  · intro h
    exact ⟨_, ofKinds_eq_ok_iff.2 ⟨rfl, h⟩⟩

theorem wellNamed_of_ofKinds (h : ofKinds kinds = .ok c) : WellNamed kinds :=
  exists_ofKinds_iff.1 ⟨c, h⟩

/-- The kinds entered one after another under their names. A name that is there twice would
overwrite the kind before. -/
def byName (kinds : List Kind) : Dict Kind :=
  Dict.ofList (kinds.map fun k => (k.name, k))

/-- Entered under names of their own, no kind overwrites another one. -/
theorem WellNamed.perm_byName (h : WellNamed kinds) :
    (byName kinds).entries.Perm (kinds.map fun k => (k.name, k)) := by
  apply perm_sortEntries
  rw [List.map_map]
  exact h.nodup

theorem WellNamed.get?_byName_eq_some_iff (h : WellNamed kinds) {name : String} {k : Kind} :
    (byName kinds).get? name = some k ↔ k ∈ kinds ∧ k.name = name := by
  rw [Dict.get?, lookup_eq_some_iff_mem (byName kinds).sorted, h.perm_byName.mem_iff, List.mem_map]
  constructor
  · rintro ⟨l, hl, heq⟩
    obtain ⟨rfl, rfl⟩ := Prod.mk.inj heq
    exact ⟨hl, rfl⟩
  · rintro ⟨hk, rfl⟩
    exact ⟨k, hk, rfl⟩

section Answers

theorem find?_eq_get?_byName (h : ofKinds kinds = .ok c) (name : String) :
    c.find? name = (byName kinds).get? name := by
  apply Option.ext
  intro k
  rw [find?_eq_some_iff h, (wellNamed_of_ofKinds h).get?_byName_eq_some_iff]

theorem size_eq_length (h : ofKinds kinds = .ok c) : c.size = kinds.length := by
  obtain ⟨rfl, _⟩ := ofKinds_eq_ok_iff.1 h
  rfl

theorem find?_of_mem (h : ofKinds kinds = .ok c) {k : Kind} (hk : k ∈ kinds) :
    c.find? k.name = some k :=
  (find?_eq_some_iff h).2 ⟨hk, rfl⟩

theorem find?_eq_none_iff (h : ofKinds kinds = .ok c) {name : String} :
    c.find? name = none ↔ name ∉ kinds.map Kind.name := by
  rw [Option.eq_none_iff_forall_ne_some, List.mem_map]
  simp only [ne_eq, find?_eq_some_iff h, not_exists]

theorem lookup_eq_ok_iff {name : String} {k : Kind} :
    c.lookup name = .ok k ↔ c.find? name = some k := by
  unfold lookup
  cases c.find? name with
  | none => exact iff_of_false nofun nofun
  | some l => exact ⟨fun h => congrArg some (Except.ok.inj h),
      fun h => congrArg Except.ok (Option.some.inj h)⟩

theorem lookup_eq_error_iff {name : String} {e : Failure} :
    c.lookup name = .error e ↔ c.find? name = none ∧ e = .unknownKind name := by
  unfold lookup
  cases c.find? name with
  | none =>
    rw [Except.error.injEq, eq_comm]
    exact (and_iff_right rfl).symm
  | some l => exact iff_of_false nofun nofun

theorem roleOf_of_find? {name : String} {k : Kind} (h : c.find? name = some k) :
    c.roleOf name = k.role := by
  rw [roleOf, h]

theorem roleOf_of_find?_eq_none {name : String} (h : c.find? name = none) :
    c.roleOf name = .other := by
  rw [roleOf, h]

/-- The catalog is the map from the names of the kinds to the kinds. A dictionary that these are
entered into keeps all of them and answers alike. -/
structure IsMapOf (c : Catalog) (kinds : List Kind) : Prop where
  size : c.size = kinds.length
  find?_of_mem : ∀ k ∈ kinds, c.find? k.name = some k
  find?_of_notMem : ∀ name, name ∉ kinds.map Kind.name → c.find? name = none
  lookup_ok : ∀ name k, c.lookup name = .ok k ↔ c.find? name = some k
  lookup_error : ∀ name e, c.lookup name = .error e ↔ c.find? name = none ∧ e = .unknownKind name
  roleOf_of_mem : ∀ k ∈ kinds, c.roleOf k.name = k.role
  roleOf_of_notMem : ∀ name, name ∉ kinds.map Kind.name → c.roleOf name = .other
  nothing_overwritten : (byName kinds).entries.length = c.size
  find?_eq_get? : ∀ name, c.find? name = (byName kinds).get? name

theorem isMapOf_of_ofKinds (h : ofKinds kinds = .ok c) : IsMapOf c kinds where
  size := size_eq_length h
  find?_of_mem _ hk := find?_of_mem h hk
  find?_of_notMem _ hname := (find?_eq_none_iff h).2 hname
  lookup_ok _ _ := lookup_eq_ok_iff
  lookup_error _ _ := lookup_eq_error_iff
  roleOf_of_mem _ hk := roleOf_of_find? (find?_of_mem h hk)
  roleOf_of_notMem _ hname := roleOf_of_find?_eq_none ((find?_eq_none_iff h).2 hname)
  nothing_overwritten := by
    rw [(wellNamed_of_ofKinds h).perm_byName.length_eq, List.length_map, size_eq_length h]
  find?_eq_get? := find?_eq_get?_byName h

end Answers

structure HoldsConfigured (c : Catalog) (k : Settings.Kinds) : Prop where
  size : c.size = k.primary.length + 3
  primary : ∀ p ∈ k.primary, c.find? p.kind = some
    { name := p.kind, apiGroup := k.apiGroup, role := .primary, tracksUpgrade := p.tracksUpgrade,
      specField := "spec" }
  config : c.find? k.configKind = some
    { name := k.configKind, apiGroup := "", role := .configObject, tracksUpgrade := false,
      specField := "data" }
  secret : c.find? k.secretKind = some
    { name := k.secretKind, apiGroup := "", role := .secret, tracksUpgrade := false,
      specField := "data" }
  worker : c.find? k.workerKind = some
    { name := k.workerKind, apiGroup := "apps", role := .workerDeployment, tracksUpgrade := false,
      specField := "spec" }
  nothing_else : ∀ name, name ∉ k.primary.map Settings.PrimaryKind.kind ++ k.builtin →
    c.find? name = none

theorem holdsConfigured_of_ofSettings {s : Settings} (h : ofSettings s = .ok c) :
    HoldsConfigured c s.kinds := by
  have hbuiltin {k : Kind} (hk : k ∈ [Kind.configObject s.kinds.configKind,
      .secret s.kinds.secretKind, .worker s.kinds.workerKind]) : c.find? k.name = some k :=
    find?_of_mem h (List.mem_append_right _ hk)
  constructor
  case size =>
    rw [size_eq_length h, configuredKinds_eq, List.length_append, List.length_map]
    rfl
  case primary =>
    intro p hp
    exact find?_of_mem h (List.mem_append_left _ (List.mem_map_of_mem hp))
  case config => exact hbuiltin (k := .configObject _) (by simp)
  case secret => exact hbuiltin (k := .secret _) (by simp)
  case worker => exact hbuiltin (k := .worker _) (by simp)
  case nothing_else =>
    intro name hname
    rw [find?_eq_none_iff h, configuredKinds_names]
    exact hname

theorem exists_ofSettings_iff {s : Settings} :
    (∃ c, ofSettings s = .ok c) ↔
      (∀ name ∈ s.kinds.primary.map Settings.PrimaryKind.kind ++ s.kinds.builtin, name ≠ "") ∧
        (s.kinds.primary.map Settings.PrimaryKind.kind ++ s.kinds.builtin).Nodup := by
  rw [← configuredKinds_names, List.forall_mem_map]
  have hnamed : (∃ c, ofSettings s = .ok c) ↔ WellNamed (configuredKinds s.kinds) :=
    exists_ofKinds_iff
  exact hnamed.trans ⟨fun h => ⟨h.named, h.nodup⟩, fun h => ⟨h.1, h.2⟩⟩

/-- Kinds make a catalog iff all of them have names of their own. It is then the map from these
names to the kinds; otherwise the failure is about the first kind that is without a name or repeats
one. The catalog of settings holds the listed and the builtin kinds, and there is one iff these
have names of their own. -/
theorem map_of_kinds_or_first_fault :
    (∀ kinds : List Kind,
      ((∃ c, ofKinds kinds = .ok c) ↔ WellNamed kinds) ∧
        (∀ e, ofKinds kinds = .error e ↔ ∃ before k after, kinds = before ++ k :: after ∧
          WellNamed before ∧ IsFault (before.map Kind.name) k e) ∧
        ∀ c, ofKinds kinds = .ok c → IsMapOf c kinds) ∧
    ∀ s : Settings,
      ((∃ c, ofSettings s = .ok c) ↔
        (∀ name ∈ s.kinds.primary.map Settings.PrimaryKind.kind ++ s.kinds.builtin, name ≠ "") ∧
          (s.kinds.primary.map Settings.PrimaryKind.kind ++ s.kinds.builtin).Nodup) ∧
        ∀ c, ofSettings s = .ok c → HoldsConfigured c s.kinds := by
  refine ⟨fun kinds => ⟨exists_ofKinds_iff, ?_, fun c => isMapOf_of_ofKinds⟩,
    fun s => ⟨exists_ofSettings_iff, fun c => holdsConfigured_of_ofSettings⟩⟩
  intro e
  rw [ofKinds_eq_error_iff, fault?_nil_eq_some_iff]
  simp only [wellNamed_iff]

/-- The default settings make a catalog that knows filesystems and no jobs. Where two kinds are at
fault, the failure is about the first of them. -/
theorem map_of_kinds_or_first_fault_conventional :
    (∃ c, ofSettings {} = .ok c ∧ c.size = 13 ∧
      c.find? "CephFilesystem" = some
        { name := "CephFilesystem", apiGroup := "ceph.rook.io", role := .primary,
          tracksUpgrade := true, specField := "spec" } ∧
      c.lookup "Job" = .error (.unknownKind "Job")) ∧
    ofKinds [.secret "Secret", .worker "Deployment", .configObject "Secret", .worker ""] =
      .error (.configuration "kind Secret registered more than once") := by
  obtain ⟨hkinds, hsettings⟩ := map_of_kinds_or_first_fault
  obtain ⟨hexists, hholds⟩ := hsettings {}
  obtain ⟨c, hc⟩ := hexists.2 (by decide)
  have hmap : IsMapOf c (configuredKinds {}) := (hkinds _).2.2 c hc
  refine ⟨⟨c, hc, (hholds c hc).size, ?_, ?_⟩, ((hkinds _).2.1 _).2 ?_⟩
  · exact (hholds c hc).primary { kind := "CephFilesystem", tracksUpgrade := true } (by decide)
  · exact (hmap.lookup_error _ _).2 ⟨hmap.find?_of_notMem _ (by decide), rfl⟩
  · exact ⟨[.secret "Secret", .worker "Deployment"], _, _, rfl, by decide,
      .inr ⟨by decide, by decide, rfl⟩⟩

end ReconcileTrigger.Catalog
