import EntityScaffold.Proofs.Artifacts
import EntityScaffold.Proofs.ContextReferences

/-!
# Which outputs of a clean request stay apart

Names of tables are different, but the names of what is generated from them are not: two tables
can have one class, two classes one plural, and prefixes and suffixes can bring the names of two
types together. No check looks at any of this.

Results:
* `Request.nodup_sets_iff`: the sets of a context differ exactly when the classes do and no two
  of them are `PluralTwins`.
* `Request.nodup_typeNames_iff`: the types differ exactly when the classes do, the families of
  types do not meet and the types that exist once stay clear of them and of each other.
* `outputs_apart_iff`: for a clean request, when paths, collected files, sets and types are kept
  apart.
-/

namespace EntityScaffold

namespace Request

variable {r : Request}

/-! ## Sets of the context -/

/-- What keeps the sets of a context apart. -/
structure SetsApart (r : Request) : Prop where
  classes : r.classNames.Nodup
  plurals : ∀ c ∈ r.classNames, ∀ c' ∈ r.classNames, ¬ Text.PluralTwins c c'

/-- **The sets of a context differ exactly when the classes do and no two of them are twins.** -/
theorem nodup_sets_iff (r : Request) : (r.context.sets.map Prod.snd).Nodup ↔ r.SetsApart := by
  have hsets : r.context.sets.map Prod.snd = r.classNames.map Text.pluralize := by
    show (r.validTables.map fun t => (t.className, t.collectionName)).map Prod.snd =
      (r.validTables.map Table.className).map Text.pluralize
    simp only [List.map_map, Function.comp_def, Table.collectionName]
  rw [hsets]
  constructor
  · intro h
    have hclasses : r.classNames.Nodup := h.of_map _
    refine ⟨hclasses, fun c hc c' hc' htwins => ?_⟩
    obtain rfl := (List.nodup_map_iff_inj_on hclasses).mp h c hc c' hc' htwins.pluralize_eq
    exact Text.not_pluralTwins_self c htwins
  · rintro ⟨hclasses, hplurals⟩
    refine (List.nodup_map_iff_inj_on hclasses).mpr fun c hc c' hc' he => ?_
    rcases Text.pluralize_eq_iff.mp he with he | htwins | htwins
    · exact he
    · exact absurd htwins (hplurals c hc c' hc')
    · exact absurd htwins (hplurals c' hc' c hc)

/-! ## Types -/

/-- The names of the types that are generated, apart from the class of registrations. -/
def typeNames (r : Request) : List String :=
  (r.allArtifacts.filter fun a => a.kind != .extensions).map Artifact.typeName

/-- The types that exist once: the context and the generic repository with its interface. -/
def sharedTypes (r : Request) : List String :=
  [r.contextName, r.genericRepositoryInterface, r.genericRepository]

theorem typeNames_eq (r : Request) :
    r.typeNames =
      (r.classNames.flatMap fun c => (r.families.map TypeFamily.name).map (· c)) ++
        r.sharedTypes := by
  have htables : ((r.classNames.flatMap fun c => r.families.map fun f => (f.kind, f.name c)).filter
      fun s => s.1 != .extensions) =
      r.classNames.flatMap fun c => r.families.map fun f => (f.kind, f.name c) := by
    refine List.filter_eq_self.mpr fun s hs => ?_
    obtain ⟨c, -, hs⟩ := List.mem_flatMap.mp hs
    obtain ⟨f, hf, rfl⟩ := List.mem_map.mp hs
    exact bne_iff_ne.mpr (kind_ne_of_mem_families hf).2
  have hshared : (r.sharedNames.filter fun s => s.1 != .extensions).map Prod.snd =
      r.sharedTypes := by
    unfold sharedNames
    cases r.diExtensions <;> rfl
  have hnames : r.typeNames = ((r.allArtifacts.map fun a => (a.kind, a.typeName)).filter
      fun s => s.1 != .extensions).map Prod.snd := by
    unfold typeNames
    rw [List.filter_map, List.map_map]
    rfl
  rw [hnames, allArtifacts_map_name, List.filter_append, List.map_append, hshared, htables,
    List.map_flatMap]
  simp only [List.map_map]
  rfl

/-- What keeps the types of a request apart. -/
structure TypesApart (r : Request) : Prop where
  classes : r.classNames.Nodup
  /-- No class has a type in one family that is named like a type in another. -/
  families : r.families.Pairwise fun f g =>
    ∀ c ∈ r.classNames, ∀ c' ∈ r.classNames, f.name c ≠ g.name c'
  /-- The generic repository is not named like its interface. -/
  generic : r.naming.repositoryInterfacePrefix ≠ ""
  context : r.contextName ≠ r.genericRepositoryInterface ∧ r.contextName ≠ r.genericRepository
  /-- No table has a type that is named like one that exists once. -/
  shared : ∀ f ∈ r.families, ∀ c ∈ r.classNames, f.name c ∉ r.sharedTypes

theorem nodup_sharedTypes_iff (r : Request) :
    r.sharedTypes.Nodup ↔ r.naming.repositoryInterfacePrefix ≠ "" ∧
      r.contextName ≠ r.genericRepositoryInterface ∧ r.contextName ≠ r.genericRepository := by
  have hgeneric : r.genericRepositoryInterface = r.genericRepository ↔
      r.naming.repositoryInterfacePrefix = "" := by
    unfold genericRepositoryInterface
    constructor
    · intro h
      exact (String.append_left_inj r.genericRepository).mp (h.trans String.empty_append.symm)
    · intro h
      rw [h, String.empty_append]
  simp only [sharedTypes, List.nodup_cons, List.mem_cons, List.not_mem_nil, or_false, not_or,
    not_false_eq_true, List.nodup_nil, and_true, hgeneric]
  exact and_comm

/-- **The types of a request differ exactly when the classes do, no two families meet and the
types that exist once stay clear of them.** -/
theorem nodup_typeNames_iff (r : Request) : r.typeNames.Nodup ↔ r.TypesApart := by
  have hinj : ∀ f ∈ r.families.map TypeFamily.name, Function.Injective f := by
    intro f hf
    obtain ⟨g, -, rfl⟩ := List.mem_map.mp hf
    exact g.name_injective
  rw [typeNames_eq, List.nodup_append', nodup_sharedTypes_iff]
  constructor
  · rintro ⟨htables, ⟨hgeneric, hcontext⟩, hapart⟩
    have hclasses :=
      nodup_of_nodup_flatMap (List.mem_map_of_mem r.mem_families_repository) htables
    have hmeet := (nodup_flatMap_iff hclasses hinj).mp htables
    refine ⟨hclasses, List.pairwise_map.mp hmeet, hgeneric, hcontext, fun f hf c hc => ?_⟩
    refine hapart (List.mem_flatMap.mpr ⟨c, hc, List.mem_map.mpr ⟨f.name, ?_, rfl⟩⟩)
    exact List.mem_map_of_mem hf
  · rintro ⟨hclasses, hmeet, hgeneric, hcontext, hshared⟩
    refine ⟨(nodup_flatMap_iff hclasses hinj).mpr (List.pairwise_map.mpr hmeet),
      ⟨hgeneric, hcontext⟩, fun x hx hx' => ?_⟩
    obtain ⟨c, hc, hname⟩ := List.mem_flatMap.mp hx
    obtain ⟨_, hfamily, rfl⟩ := List.mem_map.mp hname
    obtain ⟨f, hf, rfl⟩ := List.mem_map.mp hfamily
    exact hshared f hf c hc hx'

/-! ## Files -/

/-- What keeps the files of a clean request apart. -/
structure PathsApart (r : Request) : Prop where
  classes : r.classNames.Nodup
  /-- Without a suffix for repositories, the generic one has a name that a class could have. -/
  generic : r.naming.repositoryClassSuffix = "" → "Repository" ∉ r.classNames

/-- A repository is named like the generic one only without a suffix. -/
theorem repositoryName_eq_genericRepository_iff {t : Table} (h : t.className ≠ "") :
    r.repositoryName t = r.genericRepository ↔
      r.naming.repositoryClassSuffix = "" ∧ t.className = "Repository" := by
  unfold repositoryName genericRepository
  by_cases hs : r.naming.repositoryClassSuffix = ""
  · simp [hs]
  · have hb : r.naming.repositoryClassSuffix.isEmpty = false := by
      rw [← Bool.not_eq_true, String.isEmpty_iff]
      exact hs
    simp only [hb, Bool.false_eq_true, if_false, hs, false_and, iff_false]
    intro he
    exact h ((String.append_left_inj r.naming.repositoryClassSuffix).mp
      (he.trans String.empty_append.symm))

theorem nodup_paths_iff_of_isClean (hr : r.IsClean) :
    (r.artifacts.map Prod.fst).Nodup ↔ r.PathsApart := by
  have hne : ∀ t ∈ r.validTables, t.className ≠ "" := fun t ht =>
    Text.ne_empty_of_accepts (hr.acceptsIdentifier_className ht)
  have hgeneric : (∀ t ∈ r.validTables, r.repositoryName t ≠ r.genericRepository) ↔
      (r.naming.repositoryClassSuffix = "" → "Repository" ∉ r.classNames) := by
    constructor
    · intro h hs hmem
      obtain ⟨t, ht, hname⟩ := List.mem_map.mp hmem
      exact h t ht ((repositoryName_eq_genericRepository_iff (hne t ht)).mpr ⟨hs, hname⟩)
    · intro h t ht he
      obtain ⟨hs, hname⟩ := (repositoryName_eq_genericRepository_iff (hne t ht)).mp he
      exact h hs (hname ▸ List.mem_map_of_mem ht)
  rw [nodup_paths_iff, hgeneric]
  exact ⟨fun h => ⟨h.1, h.2⟩, fun h => ⟨h.classes, h.generic⟩⟩

/-- Compiling collects the files by path. -/
theorem files_compile (r : Request) : r.compile.files = collectMembers r.artifacts := rfl

end Request

/-! ## The verdict of a clean report -/

/-- **When the outputs of a clean request are kept apart**: the paths of its files, the files that
a compilation keeps, the sets of its context and the types it declares. -/
theorem outputs_apart_iff {r : Request} (hr : r.IsClean) :
    ((r.artifacts.map Prod.fst).Nodup ↔ r.PathsApart) ∧
    (r.compile.files = r.artifacts ↔ r.PathsApart) ∧
    ((r.context.sets.map Prod.snd).Nodup ↔ r.SetsApart) ∧
    (r.typeNames.Nodup ↔ r.TypesApart) := by
  have hpaths := Request.nodup_paths_iff_of_isClean hr
  refine ⟨hpaths, ?_, r.nodup_sets_iff, r.nodup_typeNames_iff⟩
  rw [Request.files_compile, collectMembers_eq_self_iff]
  exact hpaths

/-- Everything about orders and their lines is kept apart. -/
theorem outputs_apart_orders :
    (Request.orders.artifacts.map Prod.fst).Nodup ∧
    Request.orders.compile.files = Request.orders.artifacts ∧
    (Request.orders.context.sets.map Prod.snd).Nodup ∧ Request.orders.typeNames.Nodup := by
  have hclean : Request.orders.IsClean := by decide
  obtain ⟨hpaths, hfiles, hsets, htypes⟩ := outputs_apart_iff hclean
  have hclasses : Request.orders.classNames.Nodup := by decide
  have hapart : Request.orders.PathsApart := ⟨hclasses, by decide⟩
  refine ⟨hpaths.mpr hapart, hfiles.mpr hapart, hsets.mpr ⟨hclasses, by decide⟩, ?_⟩
  exact htypes.mpr ⟨hclasses, by decide, by decide, by decide, by decide⟩

/-- Two tables with one class: the report is clean, and both have the same files. -/
example :
    let columns : List Property := [{ name := "id", isPrimaryKey := true }]
    let r : Request := { tables := [⟨"order_item", columns, none⟩, ⟨"order-item", columns, none⟩] }
    r.IsClean ∧ r.tableNames.Nodup ∧ ¬ r.classNames.Nodup := by
  decide

end EntityScaffold
