import EntityScaffold.Proofs.OutputNames

/-!
# How many files a request has

The options of a request switch kinds of files on and off. Every valid table has one file of each
kind that tables have, and the other kinds have one file for the whole request; a compilation keeps
as many of them as they have paths. Nothing is asked of names here: a class may hold any character
or none at all.

* `Request.asksFor`: the kinds that are switched on.
* `Request.tableKinds`, `Request.sharedKinds`: those of tables and those of the whole request.

Results:
* `Request.length_artifacts`: how many files are generated.
* `Request.paths_apart_iff`: they have different paths exactly when the classes differ and no
  repository is named like the generic one, and exactly then a compilation keeps that many.
-/

namespace EntityScaffold

namespace Request

/-- The options of the request ask for files of the kind. -/
def asksFor (r : Request) : ArtifactKind → Bool
  | .entity | .context | .repositoryInterface | .repository => true
  | .serviceInterface => r.services && r.serviceInterfaces
  | .service => r.services
  | .repositoryTests => r.unitTests
  | .serviceTests => r.unitTests && r.services
  | .extensions => r.diExtensions

/-- The kinds of files that every valid table has. -/
def tableKinds (r : Request) : List ArtifactKind :=
  [.entity, .repositoryInterface, .repository, .serviceInterface, .service, .repositoryTests,
    .serviceTests].filter r.asksFor

/-- The kinds of files that the whole request has. -/
def sharedKinds (r : Request) : List ArtifactKind :=
  [.context, .repositoryInterface, .repository, .extensions].filter r.asksFor

theorem families_map_kind (r : Request) : r.families.map TypeFamily.kind = r.tableKinds := by
  unfold families tableKinds emitsServiceInterfaces
  cases hs : r.services <;> cases hi : r.serviceInterfaces <;> cases hu : r.unitTests <;>
    simp [List.filter_cons, asksFor, onlyIf, hs, hi, hu]

theorem sharedNames_map_kind (r : Request) : r.sharedNames.map Prod.fst = r.sharedKinds := by
  unfold sharedNames sharedKinds
  cases h : r.diExtensions <;> simp [List.filter_cons, asksFor, onlyIf, h]

/-- **How many files are generated**: one of each table kind for each valid table, and one of each
shared kind. -/
theorem length_artifacts (r : Request) :
    r.artifacts.length = r.validTables.length * r.tableKinds.length + r.sharedKinds.length := by
  have htables : (r.classNames.flatMap fun c => (r.families.map TypeFamily.path).map (· c)).length =
      r.validTables.length * r.tableKinds.length := by
    simp only [List.length_flatMap, List.length_map, List.map_const', List.sum_replicate_nat,
      classNames, ← families_map_kind]
  rw [← List.length_map (f := Prod.fst), artifacts_map_path, List.length_append, htables,
    List.length_map, ← sharedNames_map_kind, List.length_map]

/-- A compilation keeps all files that are generated exactly when these have different paths. -/
theorem totalFiles_eq_iff (r : Request) :
    r.compile.totalFiles = r.artifacts.length ↔ (r.artifacts.map Prod.fst).Nodup := by
  unfold CompileReport.totalFiles
  rw [files_compile]
  exact length_collectMembers_eq_iff _

/-- **When the files of a request have different paths**, whatever its options and the names in it:
exactly when the classes of its valid tables differ and none of them has a repository that is named
like the generic one. Exactly then a compilation has as many files as valid tables times the kinds
of files that tables have, and those of the whole request. -/
theorem paths_apart_iff (r : Request) :
    ((r.artifacts.map Prod.fst).Nodup ↔
      (r.validTables.map Table.className).Nodup ∧
        ∀ t ∈ r.validTables, r.repositoryName t ≠ r.genericRepository) ∧
    ((r.artifacts.map Prod.fst).Nodup ↔
      r.compile.totalFiles =
        r.validTables.length * r.tableKinds.length + r.sharedKinds.length) := by
  refine ⟨nodup_paths_iff r, ?_⟩
  rw [← length_artifacts]
  exact (totalFiles_eq_iff r).symm

/-- A class without a name has a repository that is named like the generic one: of nine files two
share their paths with others. -/
example :
    let r : Request := { tables := [⟨"-", [{ name := "id" }], none⟩] }
    r.classNames = [""] ∧ r.artifacts.length = 9 ∧ r.compile.totalFiles = 7 := by
  decide +kernel

end Request

end EntityScaffold
