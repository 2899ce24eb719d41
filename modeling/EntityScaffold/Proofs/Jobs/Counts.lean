import EntityScaffold.Proofs.Jobs.Agreement

/-!
# The numbers that a completed job reports

A completed job tells how many files it has made for how many tables. It counts the files that it
staged, one after the other; its package has one entry for each place that a file was staged at. So
the numbers are those of the package exactly when no two files of the request have one place, and
then every table has its entity there.

* `Request.PlacesDiffer`: no two files of a request are staged at one place.
* `ArchiveEntry.isEntity`: the entries in the directory of entities.
* `Request.EntitiesPacked`: every table has its entity in a package, and there are no others.

Results:
* `Package.length_contents_eq_iff`: how many entries a package has.
* `Request.countP_entity`: a request has one entity for each valid table.
* `Request.entitiesPacked_contents`: where places differ, so has its package.
* `Request.placesDiffer_iff`: where places differ, told by the names of the tables.
* `Pipeline.counts_agree_iff`: when the numbers of a completed job are those of its package.
-/

namespace EntityScaffold

/-! ## Entries -/

/-- The entry is in the directory of entities. -/
def ArchiveEntry.isEntity (e : ArchiveEntry) : Bool := (Path.parts e.name).head? == some "Entities"

namespace Package

variable {files : List (String × String)}

theorem length_contents (files : List (String × String)) :
    (contents files).length = (listed files).length := by
  unfold contents listed
  rw [List.length_map]

theorem length_contents_le (files : List (String × String)) :
    (contents files).length ≤ files.length := by
  rw [length_contents, length_listed]
  simpa using length_collectMembers_le (files.map fun f => (Path.normalText f.1, f.2))

/-- **A package has as many entries as files were staged exactly when these have different
places.** -/
theorem length_contents_eq_iff (files : List (String × String)) :
    (contents files).length = files.length ↔ (files.map fun f => Path.normalText f.1).Nodup := by
  rw [length_contents]
  exact length_listed_eq_iff files

/-- Files with different places are all in the package, each with its own text. -/
theorem contents_perm (hsafe : PathsSafe files)
    (hdiffer : (files.map fun f => Path.normalText f.1).Nodup) :
    (contents files).Perm (files.map fun f => ⟨Path.normalText f.1, f.2.toUTF8⟩) := by
  have hentries : ∀ f ∈ files, ArchiveEntry.of (Path.normalText f.1) f.2.toUTF8 =
      ⟨Path.normalText f.1, f.2.toUTF8⟩ :=
    fun f hf => ArchiveEntry.of_eq (hsafe.null_not_mem hf) _
  show ((listed files).map _).Perm _
  rw [listed_of_nodup hdiffer]
  refine ((List.mergeSort_perm _ _).map _).trans ?_
  simp only [List.map_map, Function.comp_def]
  exact .of_eq (List.map_congr_left hentries)

end Package

/-! ## Entities -/

/-- Only entities are in the directory of entities. -/
theorem ArtifactKind.head?_parts_path (kind : ArtifactKind) (typeName : String) :
    ((Path.parts (kind.path typeName)).head? == some "Entities") = (kind == .entity) := by
  have hparts : Path.parts (kind.path typeName) =
      kind.directory ++ Path.parts (typeName ++ ".cs") := by
    have hdirectory : Path.parts ("/".intercalate kind.directory) = kind.directory :=
      Path.parts_intercalate (fun n hn => (isPart_of_mem_directory kind hn).1)
        (by cases kind <;> decide)
    unfold path
    rw [String.append_assoc, Path.parts_append_slash, hdirectory]
  rw [hparts]
  cases kind <;> rfl

namespace Request

variable {r : Request}

/-- No two files of a request are staged at one place. -/
def PlacesDiffer (r : Request) : Prop := (r.artifacts.map fun f => Path.normalText f.1).Nodup

/-- Every valid table has its entity in the package, and there are no others. -/
structure EntitiesPacked (r : Request) (entries : List ArchiveEntry) : Prop where
  each : ∀ t ∈ r.validTables, ∃ a ∈ r.tableArtifacts r.relationships t,
    a.kind = .entity ∧ a.typeName = t.className ∧
      ⟨Path.normalText a.path, a.text.toUTF8⟩ ∈ entries
  count : entries.countP ArchiveEntry.isEntity = r.validTables.length

/-- **A request has one entity for each valid table.** -/
theorem countP_entity (r : Request) :
    r.allArtifacts.countP (·.kind == .entity) = r.validTables.length := by
  have hone : ∀ c : String, (r.families.map fun f => (f.kind, f.name c)).countP
      (fun n => n.1 == .entity) = 1 := by
    intro c
    unfold families
    cases r.emitsServiceInterfaces <;> cases r.services <;> cases r.unitTests <;>
      simp [onlyIf]
  have hnone : r.sharedNames.countP (fun n => n.1 == .entity) = 0 := by
    unfold sharedNames
    cases r.diExtensions <;> simp [onlyIf]
  have hnames : r.allArtifacts.countP (·.kind == .entity) =
      (r.allArtifacts.map fun a => (a.kind, a.typeName)).countP fun n => n.1 == .entity := by
    rw [List.countP_map]
    rfl
  rw [hnames, allArtifacts_map_name, List.countP_append, hnone, List.countP_flatMap]
  have hsum : r.classNames.map ((List.countP fun n => n.1 == .entity) ∘
      fun c => r.families.map fun f => (f.kind, f.name c)) = r.classNames.map fun _ => 1 :=
    List.map_congr_left fun c _ => hone c
  rw [hsum, List.map_const', List.sum_replicate_nat]
  simp [classNames]

theorem exists_entity (r : Request) (t : Table) :
    ∃ a ∈ r.tableArtifacts r.relationships t, a.kind = .entity ∧ a.typeName = t.className := by
  have hmem : (ArtifactKind.entity, t.className) ∈
      (r.tableArtifacts r.relationships t).map fun a => (a.kind, a.typeName) := by
    rw [tableArtifacts_map_name]
    exact List.mem_map.mpr ⟨⟨.entity, "", ""⟩, by simp [families], by simp [TypeFamily.name]⟩
  obtain ⟨a, ha, heq⟩ := List.mem_map.mp hmem
  exact ⟨a, ha, congrArg Prod.fst heq, congrArg Prod.snd heq⟩

/-- **Where places differ, the package has the entity of every table and no others.** -/
theorem entitiesPacked_contents (hsafe : PathsSafe r.artifacts) (hdiffer : r.PlacesDiffer) :
    r.EntitiesPacked (Package.contents r.artifacts) := by
  have hperm := Package.contents_perm hsafe hdiffer
  refine ⟨fun t ht => ?_, ?_⟩
  · obtain ⟨a, ha, hkind, hname⟩ := r.exists_entity t
    refine ⟨a, ha, hkind, hname, hperm.mem_iff.mpr (List.mem_map.mpr ⟨(a.path, a.text), ?_, rfl⟩)⟩
    rw [artifacts_eq]
    exact List.mem_map.mpr ⟨a, List.mem_append_left _ (List.mem_flatMap.mpr ⟨t, ht, ha⟩), rfl⟩
  · have hkinds : ∀ a ∈ r.allArtifacts,
        ArchiveEntry.isEntity ⟨Path.normalText a.path, a.text.toUTF8⟩ = (a.kind == .entity) := by
      intro a ha
      have hmem : (a.path, a.text) ∈ r.artifacts := by
        rw [artifacts_eq]
        exact List.mem_map.mpr ⟨a, ha, rfl⟩
      unfold ArchiveEntry.isEntity
      rw [Path.parts_normalText (hsafe _ hmem).1]
      exact a.kind.head?_parts_path a.typeName
    rw [hperm.countP_eq, artifacts_eq, List.map_map, List.countP_map, ← countP_entity]
    exact List.countP_congr fun a ha => by rw [← hkinds a ha]; rfl

/-- Where places differ, a compilation keeps all files. -/
theorem totalFiles_of_placesDiffer (h : r.PlacesDiffer) :
    r.compile.totalFiles = r.artifacts.length := by
  have hpaths : ((r.artifacts.map Prod.fst).map Path.normalText).Nodup := by
    rw [List.map_map, Function.comp_def]
    exact h
  unfold CompileReport.totalFiles
  rw [files_compile, length_collectMembers_eq_iff]
  exact hpaths.of_map Path.normalText

/-- **Places differ exactly when the classes do and no table's repository is named like the generic
one**, where no name of a table has a slash. -/
theorem placesDiffer_iff (hr : r.WellNamed) (hslash : r.NoSlash) :
    r.PlacesDiffer ↔
      r.classNames.Nodup ∧ ∀ t ∈ r.validTables, r.repositoryName t ≠ r.genericRepository := by
  have hnormal : (r.artifacts.map fun f => Path.normalText f.1) = r.artifacts.map Prod.fst :=
    List.map_congr_left fun f hf => normalText_of_mem_artifacts hr hslash hf
  unfold PlacesDiffer
  rw [hnormal, nodup_paths_iff]

end Request

/-! ## Completed jobs -/

namespace Pipeline

variable {setup : PipelineSetup} {tree : FileTree FileBody} {events : List Event} {job : String}
  {r : Request}

/-- **When the numbers of a completed job are those of its package.** The job reports how many files
the request has and how many valid tables. Its package never has more entries, and it has as many
exactly when no two files have one place; then a compilation of the request keeps as many files, and
the package has the entity of each valid table and no others. For names without slashes this is so
exactly when the classes of the tables differ and none has a repository with the name of the generic
one. -/
theorem counts_agree_iff (hfooting : Footing setup tree)
    (hgenerate : setup.generate = Generator.standard) (hpack : setup.pack = Package.ofDirectory)
    (hfresh : FreshNames setup tree ((accepted events).map Prod.fst))
    (hmem : (job, r) ∈ accepted events)
    (hcompleted : (((start setup tree).run events).registry.status job).status = .completed) :
    let p := (start setup tree).run events
    let files := r.artifacts.length
    (p.registry.status job).message = completionMessage files r.validTables.length ∧
    (∃ entries : List ArchiveEntry, p.tree.read (p.destination job) = .ok (.archive entries) ∧
      entries.length ≤ files ∧ (entries.length = files ↔ r.PlacesDiffer) ∧
      (r.PlacesDiffer → r.compile.totalFiles = files ∧ r.EntitiesPacked entries)) ∧
    (r.WellNamed → r.NoSlash → (r.PlacesDiffer ↔
      r.classNames.Nodup ∧ ∀ t ∈ r.validTables, r.repositoryName t ≠ r.genericRepository)) := by
  intro p files
  have hsetup : p.setup = setup := setup_run (consistent_start setup tree) events
  have hfinished := finished_of_completed hfooting hpack hfresh hmem hcompleted
  have hfiles : (setup.generate r).files = r.artifacts := by
    rw [hgenerate]
    rfl
  obtain ⟨hsafe, hread⟩ := hfinished.packaged
  have hmessage := hfinished.message
  rw [hfiles] at hsafe hread hmessage
  refine ⟨hmessage, ⟨Package.contents r.artifacts, ?_, Package.length_contents_le _,
    Package.length_contents_eq_iff _, fun hdiffer => ?_⟩, Request.placesDiffer_iff⟩
  · unfold destination
    rw [hsetup]
    exact hread
  · exact ⟨Request.totalFiles_of_placesDiffer hdiffer,
      Request.entitiesPacked_contents hsafe hdiffer⟩

/-- With an empty suffix the repository of the table `repository` is the generic one: two of the six
files that the job reports are not in its package. -/
theorem counts_agree_iff_repository :
    let setup : PipelineSetup := { stagingRoot := ["", "tmp"], packageDirectory := ["", "out"] }
    let id := "6fa459ea-ee8a-3ca4-894e-db77e160355e"
    let request : Request :=
      { tables := [⟨"repository", [{ name := "id" }], none⟩], services := false
        diExtensions := false, naming := { repositoryClassSuffix := "" } }
    let events : List Event := [.submit id request, .resume id] ++
      (List.replicate 8 [.begin 0, .finish 0, .resume id]).flatten
    let p := (start setup {}).run events
    (p.registry.status id).message = completionMessage 6 1 ∧
      ∃ entries : List ArchiveEntry,
        p.tree.read (p.destination id) = .ok (.archive entries) ∧ entries.length < 6 := by
  intro setup id request events
  have hform : ∀ i ∈ [id], HasUuidForm i :=
    fun i hi => List.mem_singleton.mp hi ▸ .of_all (by decide) (by decide)
  have hfooting : Footing setup {} := ⟨by decide, by decide, List.nodup_nil⟩
  have hfresh : FreshNames setup {} ((accepted events).map Prod.fst) :=
    .of_empty (by decide) hform (List.nodup_singleton id) (by decide)
  have hmem : (id, request) ∈ accepted events := List.mem_singleton_self _
  have hnamed : request.WellNamed :=
    ⟨by decide, ⟨by decide, by decide, by decide, by decide⟩⟩
  have hslash : request.NoSlash := by
    unfold Request.NoSlash
    decide
  have hfiles : request.artifacts.length = 6 := by decide +kernel
  have htables : request.validTables.length = 1 := by decide
  obtain ⟨hmessage, ⟨entries, hread, hle, hlength, -⟩, hdiffer⟩ :=
    counts_agree_iff hfooting rfl rfl hfresh hmem (by decide +kernel)
  rw [hfiles] at hmessage hle hlength
  rw [htables] at hmessage
  refine ⟨hmessage, entries, hread, lt_of_le_of_ne hle fun hsix => ?_⟩
  have hapart := ((hdiffer hnamed hslash).mp (hlength.mp hsix)).2
  exact absurd hapart (by decide)

end Pipeline

end EntityScaffold
