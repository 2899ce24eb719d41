import EntityScaffold.Proofs.ArtifactPaths
import EntityScaffold.Proofs.OutputNames
import EntityScaffold.Proofs.Package.Compiling
import EntityScaffold.Proofs.Package.Staged
import Mathlib.Data.List.TakeWhile

/-!
# The package of a compiled request

There are two ways to the package of a request. A compilation keeps the files by path and packages
them at once; a job stages one file after the other and packages the directory. The files of a
request have paths in their shortest form, so both ways give the same entries.

Results:
* `Request.contents_artifacts`: the files that are staged for a request, and the files that its
  compilation keeps, make the same package.
* `Package.pairwise_stored`: its entries are in strictly ascending order.
* `Request.compileToPackage_of_written`, `Request.compileToPackage_of_not_written`: a compilation
  packages just these entries, or fails as the writing of them does.
-/

namespace EntityScaffold

/-! ## Entries -/

/-- A name without a null character is not cut. -/
theorem ArchiveEntry.of_eq {name : String} (h : '\x00' ∉ name.toList) (data : ByteArray) :
    ArchiveEntry.of name data = ⟨name, data⟩ := by
  have hwhole : name.toList.takeWhile (· ≠ '\x00') = name.toList := by
    rw [List.takeWhile_eq_self_iff]
    intro c hc
    rw [decide_eq_true_eq]
    rintro rfl
    exact h hc
  unfold ArchiveEntry.of
  rw [hwhole, String.ofList_toList]

namespace Package

variable {files : List (String × String)}

/-- What is stored for files, in the order of their paths. -/
def stored (files : List (String × String)) : List ArchiveEntry :=
  (ordered files).map fun f => ⟨f.1, f.2.toUTF8⟩

/-- The entries of files with different paths are in strictly ascending order. -/
theorem pairwise_stored (h : (files.map Prod.fst).Nodup) :
    (stored files).Pairwise fun a b => a.name < b.name :=
  List.pairwise_map.mpr (pairwise_ordered h)

/-- There is one entry for each file. -/
theorem stored_perm (files : List (String × String)) :
    (stored files).Perm (files.map fun f => ⟨f.1, f.2.toUTF8⟩) :=
  (List.mergeSort_perm files _).map _

/-- No name is cut. -/
theorem map_of_ordered (h : ∀ f ∈ files, '\x00' ∉ f.1.toList) :
    ((ordered files).map fun f => ArchiveEntry.of f.1 f.2.toUTF8) = stored files :=
  List.map_congr_left fun f hf =>
    ArchiveEntry.of_eq (h f (List.mem_mergeSort.mp hf)) f.2.toUTF8

end Package

namespace Request

variable {r : Request} {t t' : FileTree FileBody} {destination : Path}

/-- The paths that a compilation keeps are those of generated files. -/
theorem exists_mem_artifacts_of_mem_files {f : String × String} (hf : f ∈ r.compile.files) :
    ∃ g ∈ r.artifacts, g.1 = f.1 := by
  rw [files_compile] at hf
  exact List.mem_map.mp (mem_keys_collectMembers.mp (List.mem_map_of_mem hf))

/-- A compilation keeps every path once. -/
theorem nodup_keys_files (r : Request) : (r.compile.files.map Prod.fst).Nodup :=
  nodup_keys_collectMembers r.artifacts

/-- A path that can be staged has no null character. -/
theorem null_not_mem_of_safe (hr : r.WellNamed) (hslash : r.NoSlash) (hsafe : PathsSafe r.artifacts)
    {f : String × String} (hf : f ∈ r.artifacts) : '\x00' ∉ f.1.toList := by
  rw [← normalText_of_mem_artifacts hr hslash hf]
  exact hsafe.null_not_mem hf

/-- **The files that are staged for a request and those that its compilation keeps make the same
package.** -/
theorem contents_artifacts (hr : r.WellNamed) (hslash : r.NoSlash) (hsafe : PathsSafe r.artifacts) :
    Package.contents r.artifacts = Package.stored r.compile.files := by
  have hnormal : r.artifacts.map (fun f => (Path.normalText f.1, f.2)) = r.artifacts := by
    conv_rhs => rw [← List.map_id r.artifacts]
    exact List.map_congr_left fun f hf =>
      Prod.ext (normalText_of_mem_artifacts hr hslash hf) rfl
  unfold Package.contents
  rw [hnormal, ← files_compile]
  refine Package.map_of_ordered fun f hf => ?_
  obtain ⟨g, hg, heq⟩ := exists_mem_artifacts_of_mem_files hf
  exact heq ▸ null_not_mem_of_safe hr hslash hsafe hg

/-- No path that a compilation keeps is unsafe. -/
theorem firstUnsafe?_files (hr : r.WellNamed) (hslash : r.NoSlash) :
    Package.firstUnsafe? r.compile.files = none := by
  unfold Package.firstUnsafe?
  rw [Option.map_eq_none_iff, List.find?_eq_none]
  intro f hf
  obtain ⟨g, hg, heq⟩ := exists_mem_artifacts_of_mem_files (List.mem_mergeSort.mp hf)
  have hsome := relativeParts?_of_mem_artifacts hr hslash hg
  rw [heq] at hsome
  rwa [Bool.not_eq_true, Option.isNone_eq_false_iff]

/-- Entries for files that can be staged have names no longer than a path. -/
theorem utf8ByteSize_of_mem_stored (hr : r.WellNamed) (hslash : r.NoSlash)
    (hsafe : PathsSafe r.artifacts) {e : ArchiveEntry} (he : e ∈ Package.stored r.compile.files) :
    e.name.utf8ByteSize ≤ FileTree.pathLimit := by
  obtain ⟨f, hf, rfl⟩ := List.mem_map.mp he
  obtain ⟨g, hg, heq⟩ := exists_mem_artifacts_of_mem_files (List.mem_mergeSort.mp hf)
  have hsize := (hsafe g hg).2.2
  rwa [normalText_of_mem_artifacts hr hslash hg, heq] at hsize

/-- What a compilation packages are the entries for its files, as far as an archive of them can be
written. -/
theorem ofFiles_files (hr : r.WellNamed) (hslash : r.NoSlash) (hsafe : PathsSafe r.artifacts)
    {written : Except FileError Unit}
    (hwrite : t.writeAtomically destination (.archive (Package.stored r.compile.files)) =
      (t', written)) :
    Package.ofFiles t r.compile.files destination =
      (t', (written.mapError PackageError.file).map fun _ => ⟨destination.name,
        (Package.ordered r.compile.files).map fun f => .of f.1 f.2⟩) := by
  have hclear : ∀ f ∈ r.compile.files, '\x00' ∉ f.1.toList := by
    intro f hf
    obtain ⟨g, hg, heq⟩ := exists_mem_artifacts_of_mem_files hf
    exact heq ▸ null_not_mem_of_safe hr hslash hsafe hg
  have harchive : Package.archiveOf (Package.stored r.compile.files) =
      .ok (.archive (Package.stored r.compile.files)) :=
    Package.archiveOf_of_le fun e he => utf8ByteSize_of_mem_stored hr hslash hsafe he
  unfold FileTree.writeAtomically at hwrite
  unfold Package.ofFiles Package.writeArchive
  rw [firstUnsafe?_files hr hslash]
  simp only [Package.map_of_ordered hclear, harchive, hwrite]
  cases written <;> rfl

/-- **A compilation packages its files where an archive of their entries can be written.** -/
theorem compileToPackage_of_written (hr : r.WellNamed) (hslash : r.NoSlash)
    (hsafe : PathsSafe r.artifacts) (hvalid : r.validTables ≠ [])
    (hwrite : t.writeAtomically destination (.archive (Package.stored r.compile.files)) =
      (t', .ok ())) :
    ∃ report, r.compileToPackage t destination = (t', .ok report) := by
  unfold compileToPackage packaged
  rw [if_pos (success_compile_iff.mpr hvalid), ofFiles_files hr hslash hsafe hwrite]
  exact ⟨_, rfl⟩

/-- **Where it cannot be written, the compilation fails for the same reason** and leaves the same
tree. -/
theorem compileToPackage_of_not_written (hr : r.WellNamed) (hslash : r.NoSlash)
    (hsafe : PathsSafe r.artifacts) (hvalid : r.validTables ≠ []) {cause : FileError}
    (hwrite : t.writeAtomically destination (.archive (Package.stored r.compile.files)) =
      (t', .error cause)) :
    r.compileToPackage t destination = (t', .error (.file cause)) := by
  unfold compileToPackage packaged
  rw [if_pos (success_compile_iff.mpr hvalid), ofFiles_files hr hslash hsafe hwrite]
  rfl

end Request

end EntityScaffold
