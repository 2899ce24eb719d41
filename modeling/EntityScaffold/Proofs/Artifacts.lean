import EntityScaffold.Compile.Report
import EntityScaffold.Proofs.Collecting
import EntityScaffold.Proofs.Findings
import EntityScaffold.Proofs.Identifiers
import Mathlib.Data.List.Basic
import Mathlib.Data.List.Nodup
import Mathlib.Data.List.Perm.Basic

/-!
# The files of a request and their paths

Files are collected by path, so two files of one path leave one. A path is a directory, which the
kind of a file fixes, and the name of its type. Every table gets the same kinds of files; their
types are named by what a `TypeFamily` puts before and after the class.

Results:
* `ArtifactKind.path_injective`: a path determines the kind and the name of its type.
* `nodup_flatMap_iff`: names that several families give to several classes differ exactly when no
  two families meet.
* `Request.nodup_paths_iff`: the paths of all files differ exactly when the classes do and no
  table's repository is named like the generic one.
-/

namespace EntityScaffold

/-! ## Paths -/

namespace ArtifactKind

/-- The start of the paths of a kind. -/
def place (kind : ArtifactKind) : List Char := ("/".intercalate kind.directory ++ "/").toList

theorem toList_path (kind : ArtifactKind) (typeName : String) :
    (kind.path typeName).toList = kind.place ++ (typeName ++ ".cs").toList := by
  unfold path place
  simp only [String.toList_append, List.append_assoc]

/-- No place is inside another. -/
theorem eq_of_place_isPrefixOf {kind kind' : ArtifactKind} (h : kind.place <+: kind'.place) :
    kind = kind' := by
  have hall : ∀ k k' : ArtifactKind, k.place.isPrefixOf k'.place = true → k = k' := by
    intro k k'
    cases k <;> cases k' <;> decide
  exact hall kind kind' (List.isPrefixOf_iff_prefix.mpr h)

/-- **A path determines the kind of its file and the name of its type.** -/
theorem path_injective {kind kind' : ArtifactKind} {name name' : String}
    (h : kind.path name = kind'.path name') : kind = kind' ∧ name = name' := by
  have hl := String.toList_inj.mpr h
  rw [toList_path, toList_path] at hl
  have hkind : kind = kind' := by
    have hp : kind.place <+: kind'.place ++ (name' ++ ".cs").toList := hl ▸ List.prefix_append _ _
    -- two prefixes of one text are prefixes of each other
    rcases List.prefix_or_prefix_of_prefix hp (List.prefix_append _ _) with hp | hp
    · exact eq_of_place_isPrefixOf hp
    · exact (eq_of_place_isPrefixOf hp).symm
  subst hkind
  refine ⟨rfl, (String.append_left_inj ".cs").mp (String.toList_inj.mp ?_)⟩
  exact List.append_cancel_left hl

end ArtifactKind

/-- Files of different kinds have different paths. -/
theorem nodup_paths_of_nodup_kinds {as : List Artifact} (h : (as.map Artifact.kind).Nodup) :
    (as.map Artifact.path).Nodup := by
  refine List.pairwise_map.mpr ((List.pairwise_map.mp h).imp fun hne he => hne ?_)
  exact (ArtifactKind.path_injective he).1

theorem filesByPath_of_nodup {as : List Artifact} (h : (as.map Artifact.path).Nodup) :
    Request.filesByPath as = as.map fun a => (a.path, a.text) := by
  refine (collectMembers_eq_self_iff _).mpr ?_
  rw [List.map_map]
  exact h

/-! ## Families of names -/

/-- **Injective families of names stay apart exactly when no two of them meet.** -/
theorem nodup_flatMap_iff {α β : Type} {l : List α} (hl : l.Nodup) {fs : List (α → β)}
    (hinj : ∀ f ∈ fs, Function.Injective f) :
    (l.flatMap fun a => fs.map (· a)).Nodup ↔
      fs.Pairwise fun f g => ∀ a ∈ l, ∀ b ∈ l, f a ≠ g b := by
  induction fs with
  | nil =>
    have hnil : (l.flatMap fun a => ([] : List (α → β)).map (· a)) = [] :=
      List.flatMap_eq_nil_iff.mpr fun _ _ => rfl
    rw [hnil]
    exact iff_of_true List.nodup_nil List.Pairwise.nil
  | cons f fs ih =>
    -- the names of the first family can be moved to the front, where the others must avoid them
    have hperm := List.map_append_flatMap_perm l f fun a => fs.map (· a)
    have hhead : (l.map f).Nodup := hl.map (hinj f List.mem_cons_self)
    have hapart : (l.map f).Disjoint (l.flatMap fun a => fs.map (· a)) ↔
        ∀ g ∈ fs, ∀ a ∈ l, ∀ b ∈ l, f a ≠ g b := by
      constructor
      · intro h g hg a ha b hb he
        exact h (List.mem_map_of_mem ha)
          (List.mem_flatMap.mpr ⟨b, hb, List.mem_map.mpr ⟨g, hg, he.symm⟩⟩)
      · intro h x hx hx'
        obtain ⟨a, ha, rfl⟩ := List.mem_map.mp hx
        obtain ⟨b, hb, hg⟩ := List.mem_flatMap.mp hx'
        obtain ⟨g, hg, he⟩ := List.mem_map.mp hg
        exact h g hg a ha b hb he.symm
    show (l.flatMap fun a => f a :: fs.map (· a)).Nodup ↔ _
    rw [← hperm.nodup_iff, List.nodup_append', List.pairwise_cons, hapart,
      ih fun g hg => hinj g (List.mem_cons_of_mem _ hg)]
    exact ⟨fun h => ⟨h.2.2, h.2.1⟩, fun h => ⟨hhead, h.2, h.1⟩⟩

/-- Names that at least one family gives to different classes come from different classes. -/
theorem nodup_of_nodup_flatMap {α β : Type} {l : List α} {fs : List (α → β)} {f : α → β}
    (hf : f ∈ fs) (h : (l.flatMap fun a => fs.map (· a)).Nodup) : l.Nodup := by
  refine (List.nodup_flatMap.mp h).2.imp fun hdisjoint he => ?_
  subst he
  exact hdisjoint (List.mem_map_of_mem hf) (List.mem_map_of_mem hf)

/-- A kind of file that every table gets, with what the name of its type adds to the class. -/
structure TypeFamily where
  kind : ArtifactKind
  before : String
  after : String

namespace TypeFamily

/-- The name of a class's type in the family. -/
def name (f : TypeFamily) (className : String) : String := f.before ++ className ++ f.after

/-- The path of a class's file in the family. -/
def path (f : TypeFamily) (className : String) : String := f.kind.path (f.name className)

theorem name_injective (f : TypeFamily) : Function.Injective f.name := by
  intro c c' h
  exact (String.append_right_inj f.before).mp ((String.append_left_inj f.after).mp h)

theorem path_injective (f : TypeFamily) : Function.Injective f.path := fun _ _ h =>
  f.name_injective (ArtifactKind.path_injective h).2

end TypeFamily

namespace Request

/-- The families of files that every table gets. -/
def families (r : Request) : List TypeFamily :=
  let n := r.naming
  [⟨.entity, "", ""⟩, ⟨.repositoryInterface, n.repositoryInterfacePrefix, n.repositoryClassSuffix⟩,
    ⟨.repository, "", n.repositoryClassSuffix⟩] ++
  onlyIf r.emitsServiceInterfaces
    ⟨.serviceInterface, n.serviceInterfacePrefix, n.serviceClassSuffix⟩ ++
  onlyIf r.services ⟨.service, "", n.serviceClassSuffix⟩ ++
  onlyIf r.unitTests ⟨.repositoryTests, "", n.repositoryClassSuffix ++ "Tests"⟩ ++
  onlyIf (r.unitTests && r.services) ⟨.serviceTests, "", n.serviceClassSuffix ++ "Tests"⟩

/-- The families are of different kinds. -/
theorem nodup_kinds_families (r : Request) : (r.families.map TypeFamily.kind).Nodup := by
  unfold families
  cases r.emitsServiceInterfaces <;> cases r.services <;> cases r.unitTests <;>
    simp [onlyIf]

/-- The files of a table are those of the families, in order. -/
theorem tableArtifacts_map_name (r : Request) (m : RelationshipMap) (t : Table) :
    (r.tableArtifacts m t).map (fun a => (a.kind, a.typeName)) =
      r.families.map fun f => (f.kind, f.name t.className) := by
  unfold tableArtifacts families
  cases r.emitsServiceInterfaces <;> cases r.services <;> cases r.unitTests <;>
    simp [onlyIf, Artifact.of, TypeFamily.name, repositoryName, repositoryInterfaceName,
      serviceName, serviceInterfaceName, String.append_assoc]

theorem mem_families_repositoryInterface (r : Request) :
    ⟨.repositoryInterface, r.naming.repositoryInterfacePrefix, r.naming.repositoryClassSuffix⟩ ∈
      r.families := by
  simp [families]

theorem mem_families_repository (r : Request) :
    ⟨.repository, "", r.naming.repositoryClassSuffix⟩ ∈ r.families := by
  simp [families]

/-- No table gets a context or an extension. -/
theorem kind_ne_of_mem_families {r : Request} {f : TypeFamily} (hf : f ∈ r.families) :
    f.kind ≠ .context ∧ f.kind ≠ .extensions := by
  simp only [families, List.mem_append, List.mem_cons, List.not_mem_nil, or_false,
    mem_onlyIf] at hf
  rcases hf with ((((rfl | rfl | rfl) | ⟨-, rfl⟩) | ⟨-, rfl⟩) | ⟨-, rfl⟩) | ⟨-, rfl⟩ <;>
    exact ⟨nofun, nofun⟩

/-! ## All files -/

/-- The classes of the compiled tables. -/
def classNames (r : Request) : List String := r.validTables.map Table.className

/-- The kinds and type names of the files that exist once. -/
def sharedNames (r : Request) : List (ArtifactKind × String) :=
  [(.context, r.contextName), (.repositoryInterface, r.genericRepositoryInterface),
    (.repository, r.genericRepository)] ++
  onlyIf r.diExtensions (.extensions, "ServiceCollectionExtensions")

/-- All files of a request, in order. -/
def allArtifacts (r : Request) : List Artifact :=
  (r.validTables.flatMap (r.tableArtifacts r.relationships)) ++
    r.sharedArtifacts r.relationships r.validTables

variable {r : Request}

theorem sharedArtifacts_map_name (r : Request) (m : RelationshipMap) (tables : List Table) :
    (r.sharedArtifacts m tables).map (fun a => (a.kind, a.typeName)) = r.sharedNames := by
  unfold sharedArtifacts sharedNames
  cases r.diExtensions <;> rfl

theorem nodup_kinds_sharedNames (r : Request) : (r.sharedNames.map Prod.fst).Nodup := by
  unfold sharedNames
  cases r.diExtensions <;> simp

/-- The kinds and type names of all files: those of the families for each class, then those of
the files that exist once. -/
theorem allArtifacts_map_name (r : Request) :
    r.allArtifacts.map (fun a => (a.kind, a.typeName)) =
      (r.classNames.flatMap fun c => r.families.map fun f => (f.kind, f.name c)) ++
        r.sharedNames := by
  unfold allArtifacts classNames
  rw [List.map_append, sharedArtifacts_map_name, List.map_flatMap, List.flatMap_map,
    List.flatMap_congr fun t _ => tableArtifacts_map_name r r.relationships t]

/-- What belongs to kinds and type names can be read off either list. -/
theorem map_kind_name {β : Type} (g : ArtifactKind × String → β) (as : List Artifact) :
    as.map (fun a => g (a.kind, a.typeName)) =
      (as.map fun a => (a.kind, a.typeName)).map g := by
  rw [List.map_map]
  rfl

theorem nodup_paths_tableArtifacts (r : Request) (m : RelationshipMap) (t : Table) :
    ((r.tableArtifacts m t).map Artifact.path).Nodup := by
  refine nodup_paths_of_nodup_kinds ?_
  show ((r.tableArtifacts m t).map fun a => Prod.fst (a.kind, a.typeName)).Nodup
  rw [map_kind_name, tableArtifacts_map_name, List.map_map]
  exact r.nodup_kinds_families

theorem nodup_paths_sharedArtifacts (r : Request) (m : RelationshipMap) (tables : List Table) :
    ((r.sharedArtifacts m tables).map Artifact.path).Nodup := by
  refine nodup_paths_of_nodup_kinds ?_
  show ((r.sharedArtifacts m tables).map fun a => Prod.fst (a.kind, a.typeName)).Nodup
  rw [map_kind_name, sharedArtifacts_map_name]
  exact r.nodup_kinds_sharedNames

/-- Neither the files of one table nor those that exist once share a path. -/
theorem artifacts_eq (r : Request) :
    r.artifacts = r.allArtifacts.map fun a => (a.path, a.text) := by
  have hshared := filesByPath_of_nodup
    (nodup_paths_sharedArtifacts r r.relationships r.validTables)
  have htables : ∀ t ∈ r.validTables, filesByPath (r.tableArtifacts r.relationships t) =
      (r.tableArtifacts r.relationships t).map fun a => (a.path, a.text) :=
    fun t _ => filesByPath_of_nodup (nodup_paths_tableArtifacts r r.relationships t)
  unfold artifacts allArtifacts
  simp only [List.map_append, List.map_flatMap, hshared, List.flatMap_congr htables]

theorem mem_artifacts_of_mem_tableArtifacts {t : Table} (ht : t ∈ r.validTables) {a : Artifact}
    (ha : a ∈ r.tableArtifacts r.relationships t) : (a.path, a.text) ∈ r.artifacts := by
  rw [artifacts_eq]
  exact List.mem_map_of_mem (List.mem_append_left _ (List.mem_flatMap.mpr ⟨t, ht, ha⟩))

/-- The paths of all files. -/
theorem artifacts_map_path (r : Request) :
    r.artifacts.map Prod.fst =
      (r.classNames.flatMap fun c => (r.families.map TypeFamily.path).map (· c)) ++
        r.sharedNames.map fun s => s.1.path s.2 := by
  have hpath : r.allArtifacts.map Artifact.path = _ :=
    map_kind_name (fun s => s.1.path s.2) r.allArtifacts
  rw [artifacts_eq, List.map_map]
  show r.allArtifacts.map Artifact.path = _
  rw [hpath, allArtifacts_map_name, List.map_append, List.map_flatMap]
  simp only [List.map_map]
  rfl

/-- The files of tables share a path with those that exist once only where the repository of a
table is named like the generic one. -/
theorem disjoint_paths_iff (r : Request) :
    (r.classNames.flatMap fun c => (r.families.map TypeFamily.path).map (· c)).Disjoint
        (r.sharedNames.map fun s => s.1.path s.2) ↔
      ∀ t ∈ r.validTables, r.repositoryName t ≠ r.genericRepository := by
  have unique : ∀ {f g : TypeFamily}, f ∈ r.families → g ∈ r.families → f.kind = g.kind → f = g :=
    fun hf hg h => List.inj_on_of_nodup_map r.nodup_kinds_families hf hg h
  constructor
  · intro h t ht he
    refine h (a := ArtifactKind.repository.path r.genericRepository) ?_ ?_
    · refine List.mem_flatMap.mpr ⟨t.className, List.mem_map_of_mem ht, List.mem_map.mpr
        ⟨_, List.mem_map_of_mem r.mem_families_repository, ?_⟩⟩
      show ArtifactKind.repository.path ("" ++ t.className ++ r.naming.repositoryClassSuffix) = _
      rw [← he, String.empty_append, repositoryName]
    · exact List.mem_map.mpr ⟨(.repository, r.genericRepository), by simp [sharedNames], rfl⟩
  · intro h x hx hx'
    obtain ⟨c, hc, hfamily⟩ := List.mem_flatMap.mp hx
    obtain ⟨t, ht, rfl⟩ := List.mem_map.mp hc
    obtain ⟨_, hpath, rfl⟩ := List.mem_map.mp hfamily
    obtain ⟨f, hf, rfl⟩ := List.mem_map.mp hpath
    obtain ⟨s, hs, he⟩ := List.mem_map.mp hx'
    obtain ⟨hkind, hname⟩ := ArtifactKind.path_injective he
    simp only [sharedNames, List.mem_append, List.mem_cons, List.not_mem_nil, or_false,
      mem_onlyIf] at hs
    rcases hs with (rfl | rfl | rfl) | ⟨-, rfl⟩
    · exact (kind_ne_of_mem_families hf).1 hkind.symm
    · obtain rfl := unique hf r.mem_families_repositoryInterface hkind.symm
      refine h t ht ((String.append_right_inj r.naming.repositoryInterfacePrefix).mp ?_)
      rw [repositoryName, ← String.append_assoc]
      exact hname.symm
    · obtain rfl := unique hf r.mem_families_repository hkind.symm
      refine h t ht ?_
      rw [TypeFamily.name, String.empty_append] at hname
      exact hname.symm
    · exact (kind_ne_of_mem_families hf).2 hkind.symm

/-- **The paths of all files differ exactly when the classes do and no table's repository is named
like the generic one.** -/
theorem nodup_paths_iff (r : Request) :
    (r.artifacts.map Prod.fst).Nodup ↔
      r.classNames.Nodup ∧ ∀ t ∈ r.validTables, r.repositoryName t ≠ r.genericRepository := by
  have hshared : (r.sharedNames.map fun s => s.1.path s.2).Nodup := by
    refine List.pairwise_map.mpr ((List.pairwise_map.mp r.nodup_kinds_sharedNames).imp ?_)
    exact fun hne he => hne (ArtifactKind.path_injective he).1
  have hfamilies : (r.families.map TypeFamily.path).Pairwise
      fun f g => ∀ c ∈ r.classNames, ∀ c' ∈ r.classNames, f c ≠ g c' := by
    refine List.pairwise_map.mpr ((List.pairwise_map.mp r.nodup_kinds_families).imp ?_)
    exact fun hne c _ c' _ he => hne (ArtifactKind.path_injective he).1
  have hinj : ∀ f ∈ r.families.map TypeFamily.path, Function.Injective f := by
    intro f hf
    obtain ⟨g, -, rfl⟩ := List.mem_map.mp hf
    exact g.path_injective
  rw [artifacts_map_path, List.nodup_append', disjoint_paths_iff]
  constructor
  · rintro ⟨htables, -, hapart⟩
    exact ⟨nodup_of_nodup_flatMap (List.mem_map_of_mem r.mem_families_repository) htables, hapart⟩
  · rintro ⟨hclasses, hapart⟩
    exact ⟨(nodup_flatMap_iff hclasses hinj).mpr hfamilies, hshared, hapart⟩

end Request

end EntityScaffold
