import EntityScaffold.Proofs.Insertion
import EntityScaffold.Proofs.Layout

/-!
# What is registered is what is generated

Which files a request has and what its extension method registers are decided apart from each other,
from the same options and the same names. A file is looked for by its path, so a type counts as
generated for a table where the files of this table have the path of the type's file.

* `Request.Yields`: a type of a kind is generated for a table.
* `Request.Registered`: a registration stands for the types of two kinds that a table has.
* `Code.scopedStatements`: the statements of a file that register a scoped type by its name.

Results:
* `Request.yields_iff`: which types are generated for a table.
* `Request.pair_mem_iff`, `Request.single_mem_iff`: what is registered, said by files.
* `Request.scopedStatements_file`: the statements of the extension method are the registrations.
* `Request.exists_registration_of_repository`, `Request.exists_registration_of_service`: every class
  of a repository or service that a compilation keeps is registered.
* `registers_generated_types`: all of it, whatever the options and names of the request.
-/

namespace EntityScaffold

/-! ## Generated types -/

namespace Request

variable {r : Request} {t : Table} {kind : ArtifactKind} {name : String}

/-- The files of the table hold that of a type, in the directory of the kind. -/
def Yields (r : Request) (t : Table) (kind : ArtifactKind) (name : String) : Prop :=
  kind.path name ∈ (r.tableFiles t).map Prod.fst

/-- **Which types are generated for a table**: one of each family. -/
theorem yields_iff :
    r.Yields t kind name ↔ ∃ f ∈ r.families, f.kind = kind ∧ f.name t.className = name := by
  have hpaths : (r.tableFiles t).map Prod.fst = r.families.map fun f => f.path t.className := by
    unfold tableFiles
    rw [filesByPath_of_nodup (nodup_paths_tableArtifacts r r.relationships t), List.map_map]
    show (r.tableArtifacts r.relationships t).map Artifact.path = _
    have hnames := map_kind_name (fun s => s.1.path s.2) (r.tableArtifacts r.relationships t)
    rw [tableArtifacts_map_name, List.map_map] at hnames
    exact hnames
  unfold Yields
  rw [hpaths, List.mem_map]
  constructor
  · rintro ⟨f, hf, he⟩
    exact ⟨f, hf, ArtifactKind.path_injective he⟩
  · rintro ⟨f, hf, rfl, rfl⟩
    exact ⟨f, hf, rfl⟩

theorem yields_repositoryInterface_iff :
    r.Yields t .repositoryInterface name ↔ name = r.repositoryInterfaceName t := by
  rw [yields_iff]
  simp [families, mem_onlyIf, or_and_right, exists_or, TypeFamily.name, repositoryInterfaceName,
    repositoryName, String.append_assoc, @eq_comm _ name]

theorem yields_repository_iff : r.Yields t .repository name ↔ name = r.repositoryName t := by
  rw [yields_iff]
  simp [families, mem_onlyIf, or_and_right, exists_or, TypeFamily.name, repositoryName,
    @eq_comm _ name]

theorem yields_serviceInterface_iff :
    r.Yields t .serviceInterface name ↔
      r.emitsServiceInterfaces = true ∧ name = r.serviceInterfaceName t := by
  rw [yields_iff]
  simp [families, mem_onlyIf, or_and_right, exists_or, TypeFamily.name, serviceInterfaceName,
    serviceName, String.append_assoc, @eq_comm _ name]

theorem yields_service_iff :
    r.Yields t .service name ↔ r.services = true ∧ name = r.serviceName t := by
  rw [yields_iff]
  simp [families, mem_onlyIf, or_and_right, exists_or, TypeFamily.name, serviceName,
    @eq_comm _ name]

/-- **Which files of a kind a compilation keeps**: those of valid tables and those that exist
once. -/
theorem path_mem_compile_iff :
    kind.path name ∈ r.compile.files.map Prod.fst ↔
      (∃ t ∈ r.validTables, r.Yields t kind name) ∨ (kind, name) ∈ r.sharedNames := by
  have hshared : kind.path name ∈ r.sharedNames.map (fun s => s.1.path s.2) ↔
      (kind, name) ∈ r.sharedNames := by
    constructor
    · intro h
      obtain ⟨⟨kind', name'⟩, hs, he⟩ := List.mem_map.mp h
      obtain ⟨rfl, rfl⟩ := ArtifactKind.path_injective he
      exact hs
    · exact fun h => List.mem_map.mpr ⟨_, h, rfl⟩
  have htables : kind.path name ∈
      (r.classNames.flatMap fun c => (r.families.map TypeFamily.path).map (· c)) ↔
      ∃ t ∈ r.validTables, r.Yields t kind name := by
    simp only [classNames, List.flatMap_map, List.mem_flatMap, List.map_map, List.mem_map,
      yields_iff, Function.comp_apply]
    constructor
    · rintro ⟨t, ht, f, hf, he⟩
      exact ⟨t, ht, f, hf, ArtifactKind.path_injective he⟩
    · rintro ⟨t, ht, f, hf, rfl, rfl⟩
      exact ⟨t, ht, f, hf, rfl⟩
  rw [files_compile, mem_keys_collectMembers, artifacts_map_path, List.mem_append, htables, hshared]

/-! ## Registrations -/

/-- The registrations of a request. -/
def registrations (r : Request) : List Registration := Registration.ofTables r r.validTables

/-- A registration stands for what a table has of an interface and a class: for both, or for the
class alone where there is no interface. -/
inductive Registered (r : Request) (t : Table) (interface implementation : ArtifactKind) :
    Registration → Prop where
  | pair {i c : String} (hi : r.Yields t interface i) (hc : r.Yields t implementation c) :
    Registered r t interface implementation (.pair i c)
  | single {c : String} (hi : ∀ i, ¬ r.Yields t interface i) (hc : r.Yields t implementation c) :
    Registered r t interface implementation (.single c)

theorem registered_ofRepository (r : Request) (t : Table) :
    r.Registered t .repositoryInterface .repository (Registration.ofRepository r t) :=
  .pair (yields_repositoryInterface_iff.mpr rfl) (yields_repository_iff.mpr rfl)

theorem registered_ofService (h : r.services = true) (t : Table) :
    r.Registered t .serviceInterface .service (Registration.ofService r t) := by
  have hc : r.Yields t .service (r.serviceName t) := yields_service_iff.mpr ⟨h, rfl⟩
  unfold Registration.ofService
  split_ifs with hi
  · exact .pair (yields_serviceInterface_iff.mpr ⟨hi, rfl⟩) hc
  · exact .single (fun i hy => hi (yields_serviceInterface_iff.mp hy).1) hc

/-- The repositories come first and then the services, each in the order of tables. -/
theorem registrations_eq (r : Request) :
    ∃ repositories services, r.registrations = repositories ++ services ∧
      List.Forall₂ (fun t => r.Registered t .repositoryInterface .repository) r.validTables
        repositories ∧
      List.Forall₂ (fun t => r.Registered t .serviceInterface .service)
        (if r.services then r.validTables else []) services := by
  refine ⟨_, _, rfl, ?_, ?_⟩
  · exact List.forall₂_map_right_iff.mpr
      (List.forall₂_same.mpr fun t _ => registered_ofRepository r t)
  · split_ifs with h
    · exact List.forall₂_map_right_iff.mpr
        (List.forall₂_same.mpr fun t _ => registered_ofService h t)
    · exact .nil

theorem mem_registrations_iff {x : Registration} :
    x ∈ r.registrations ↔
      (∃ t ∈ r.validTables, x = .ofRepository r t) ∨
        r.services = true ∧ ∃ t ∈ r.validTables, x = .ofService r t := by
  unfold registrations Registration.ofTables
  rw [List.mem_append, List.mem_map]
  cases r.services <;> simp [@eq_comm _ x]

theorem pair_eq_ofService_iff {i c : String} :
    .pair i c = Registration.ofService r t ↔
      r.emitsServiceInterfaces = true ∧ i = r.serviceInterfaceName t ∧ c = r.serviceName t := by
  unfold Registration.ofService
  cases r.emitsServiceInterfaces <;> simp

theorem single_eq_ofService_iff {c : String} :
    .single c = Registration.ofService r t ↔
      r.emitsServiceInterfaces = false ∧ c = r.serviceName t := by
  unfold Registration.ofService
  cases r.emitsServiceInterfaces <;> simp

/-- **A pair is registered exactly where both files are generated for one table.** -/
theorem pair_mem_iff {i c : String} :
    .pair i c ∈ r.registrations ↔ ∃ t ∈ r.validTables,
      (r.Yields t .repositoryInterface i ∧ r.Yields t .repository c) ∨
        (r.Yields t .serviceInterface i ∧ r.Yields t .service c) := by
  have hrepository : ∀ t, .pair i c = Registration.ofRepository r t ↔
      r.Yields t .repositoryInterface i ∧ r.Yields t .repository c := by
    intro t
    rw [yields_repositoryInterface_iff, yields_repository_iff]
    exact Registration.pair.injEq .. ▸ Iff.rfl
  have hservice : ∀ t, (r.services = true ∧ .pair i c = Registration.ofService r t) ↔
      r.Yields t .serviceInterface i ∧ r.Yields t .service c := by
    intro t
    rw [yields_serviceInterface_iff, yields_service_iff, pair_eq_ofService_iff]
    tauto
  rw [mem_registrations_iff]
  constructor
  · rintro (⟨t, ht, h⟩ | ⟨hs, t, ht, h⟩)
    · exact ⟨t, ht, .inl ((hrepository t).mp h)⟩
    · exact ⟨t, ht, .inr ((hservice t).mp ⟨hs, h⟩)⟩
  · rintro ⟨t, ht, h | h⟩
    · exact .inl ⟨t, ht, (hrepository t).mpr h⟩
    · obtain ⟨hs, h⟩ := (hservice t).mpr h
      exact .inr ⟨hs, t, ht, h⟩

/-- **A class is registered alone exactly where services are generated without interfaces.** -/
theorem single_mem_iff {c : String} :
    .single c ∈ r.registrations ↔
      (r.services = true ∧ r.serviceInterfaces = false) ∧
        ∃ t ∈ r.validTables, r.Yields t .service c := by
  have hinterfaces : r.services = true →
      (r.emitsServiceInterfaces = false ↔ r.serviceInterfaces = false) := by
    intro hs
    rw [emitsServiceInterfaces, hs, Bool.true_and]
  rw [mem_registrations_iff]
  constructor
  · rintro (⟨t, ht, h⟩ | ⟨hs, t, ht, h⟩)
    · exact nomatch h
    · obtain ⟨hi, hc⟩ := single_eq_ofService_iff.mp h
      exact ⟨⟨hs, (hinterfaces hs).mp hi⟩, t, ht, yields_service_iff.mpr ⟨hs, hc⟩⟩
  · rintro ⟨⟨hs, hi⟩, t, ht, h⟩
    obtain ⟨-, hc⟩ := yields_service_iff.mp h
    exact .inr ⟨hs, t, ht, single_eq_ofService_iff.mpr ⟨(hinterfaces hs).mpr hi, hc⟩⟩

/-- **Every class of a repository that a compilation keeps is registered**, the generic one
aside. -/
theorem exists_registration_of_repository {c : String}
    (h : ArtifactKind.repository.path c ∈ r.compile.files.map Prod.fst)
    (hgeneric : c ≠ r.genericRepository) : ∃ i, .pair i c ∈ r.registrations := by
  rcases path_mem_compile_iff.mp h with ⟨t, ht, hc⟩ | hshared
  · refine ⟨r.repositoryInterfaceName t, pair_mem_iff.mpr ⟨t, ht, .inl ⟨?_, hc⟩⟩⟩
    exact yields_repositoryInterface_iff.mpr rfl
  · simp only [sharedNames, List.mem_append, List.mem_cons, Prod.mk.injEq, mem_onlyIf,
      List.not_mem_nil, reduceCtorEq, false_and, and_false, or_false, false_or, true_and] at hshared
    exact absurd hshared hgeneric

/-- **Every class of a service that a compilation keeps is registered.** -/
theorem exists_registration_of_service {c : String}
    (h : ArtifactKind.service.path c ∈ r.compile.files.map Prod.fst) :
    (∃ i, .pair i c ∈ r.registrations) ∨ .single c ∈ r.registrations := by
  rcases path_mem_compile_iff.mp h with ⟨t, ht, hc⟩ | hshared
  · obtain ⟨hs, -⟩ := yields_service_iff.mp hc
    cases hi : r.serviceInterfaces with
    | true =>
      refine .inl ⟨r.serviceInterfaceName t, pair_mem_iff.mpr ⟨t, ht, .inr ⟨?_, hc⟩⟩⟩
      exact yields_serviceInterface_iff.mpr ⟨by rw [emitsServiceInterfaces, hs, hi]; rfl, rfl⟩
    | false => exact .inr (single_mem_iff.mpr ⟨⟨hs, hi⟩, t, ht, hc⟩)
  · simp [sharedNames, mem_onlyIf] at hshared

end Request

/-! ## The extension method -/

/-- The statements of a method of a class that register a scoped type by its name. Generic types are
registered through `typeof`, so their statements start otherwise. -/
def Code.scopedStatements (body : List Code.Line) : List String :=
  (Code.textsAt 2 body).filter (Code.startsWith "services.AddScoped<")

theorem Registration.startsWith_code (x : Registration) :
    Code.startsWith "services.AddScoped<" x.code = true := by
  have hcode : ∃ rest, x.code = "services.AddScoped<" ++ rest := by
    unfold code
    cases x with
    | pair i c =>
      simp only [String.append_assoc]
      exact ⟨_, rfl⟩
    | single c =>
      simp only [String.append_assoc]
      exact ⟨_, rfl⟩
  obtain ⟨rest, hrest⟩ := hcode
  rw [hrest]
  exact Code.startsWith_append (by decide) _

/-- **The statements of the extension method are the registrations.** -/
theorem Request.scopedStatements_file (r : Request) :
    Code.scopedStatements (Registration.file r r.validTables).body =
      r.registrations.map Registration.code := by
  have hcodes : ((Registration.ofTables r r.validTables).map Registration.code).filter
      (Code.startsWith "services.AddScoped<") = r.registrations.map Registration.code := by
    refine List.filter_eq_self.mpr fun s hs => ?_
    obtain ⟨x, -, rfl⟩ := List.mem_map.mp hs
    exact x.startsWith_code
  -- the two statements before them start otherwise, whatever the names in them are
  have hfixed : [s!"services.AddDbContext<{r.contextName}>(configureDbContext);",
      s!"services.AddScoped(typeof({r.genericRepositoryInterface}<>), " ++
        s!"typeof({r.genericRepository}<>));"].filter
      (Code.startsWith "services.AddScoped<") = [] := by
    simp only [String.append_assoc]
    refine List.filter_eq_nil_iff.mpr fun s hs => ?_
    rcases List.mem_pair.mp hs with rfl | rfl
    · rw [Code.startsWith_append_eq_false (by decide) (by decide)]
      exact Bool.false_ne_true
    · rw [Code.startsWith_append_eq_false (by decide) (by decide)]
      exact Bool.false_ne_true
  have hframe : (["this IServiceCollection services,",
        "Action<DbContextOptionsBuilder> configureDbContext)"].filter
          (Code.startsWith "services.AddScoped<") = [] ∧
      (Code.textsAt 0 Code.blank).filter (Code.startsWith "services.AddScoped<") = []) ∧
      (Code.textsAt 0 (Code.line "return services;")).filter
        (Code.startsWith "services.AddScoped<") = [] := by
    decide
  unfold Code.scopedStatements Registration.file
  rw [Code.textsAt_block_succ]
  simp only [Code.textsAt_append, Code.textsAt_line_succ, Code.textsAt_indent_succ,
    Code.textsAt_lines_zero, Code.textsAt_braced_succ, List.filter_append, hcodes, hfixed, hframe,
    List.nil_append, List.append_nil]

/-- The extension method is generated, and no other file takes its place. -/
theorem Request.extensions_mem_compile {r : Request} (h : r.diExtensions = true) :
    (ArtifactKind.extensions.path "ServiceCollectionExtensions",
      (Registration.file r r.validTables).text) ∈ r.compile.files := by
  have hlast : ∃ front, r.allArtifacts = front ++
      [Artifact.of .extensions "ServiceCollectionExtensions"
        (Registration.file r r.validTables)] := by
    unfold allArtifacts sharedArtifacts
    rw [h, ← List.append_assoc]
    exact ⟨_, rfl⟩
  obtain ⟨front, hfront⟩ := hlast
  rw [files_compile, artifacts_eq, hfront, List.map_append]
  exact mem_collectMembers_concat _ _

/-- The registrations of a request are the types that it generates. -/
structure Request.RegistersGenerated (r : Request) : Prop where
  /-- The extension method is generated, and its statements are the registrations. -/
  written : (ArtifactKind.extensions.path "ServiceCollectionExtensions",
      (Registration.file r r.validTables).text) ∈ r.compile.files ∧
    Code.scopedStatements (Registration.file r r.validTables).body =
      r.registrations.map Registration.code
  /-- Once for each table, in the order of tables: first repositories, then services. -/
  order : ∃ repositories services, r.registrations = repositories ++ services ∧
    List.Forall₂ (fun t => r.Registered t .repositoryInterface .repository) r.validTables
      repositories ∧
    List.Forall₂ (fun t => r.Registered t .serviceInterface .service)
      (if r.services then r.validTables else []) services
  /-- What is generated for a table is in the files of the compilation. -/
  kept : ∀ t ∈ r.validTables, ∀ kind name, r.Yields t kind name →
    kind.path name ∈ r.compile.files.map Prod.fst
  pair : ∀ i c, .pair i c ∈ r.registrations ↔ ∃ t ∈ r.validTables,
    (r.Yields t .repositoryInterface i ∧ r.Yields t .repository c) ∨
      (r.Yields t .serviceInterface i ∧ r.Yields t .service c)
  single : ∀ c, .single c ∈ r.registrations ↔
    (r.services = true ∧ r.serviceInterfaces = false) ∧
      ∃ t ∈ r.validTables, r.Yields t .service c
  /-- Every class of a repository is registered, the generic one aside. -/
  repositories : ∀ c, ArtifactKind.repository.path c ∈ r.compile.files.map Prod.fst →
    c ≠ r.genericRepository → ∃ i, .pair i c ∈ r.registrations
  /-- Every class of a service is registered. -/
  services : ∀ c, ArtifactKind.service.path c ∈ r.compile.files.map Prod.fst →
    (∃ i, .pair i c ∈ r.registrations) ∨ .single c ∈ r.registrations

end EntityScaffold
