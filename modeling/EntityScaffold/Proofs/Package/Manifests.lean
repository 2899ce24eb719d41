import EntityScaffold.Proofs.Package.Compiled

/-!
# What a manifest says of its package

The files of a package are sorted once. The archive is made from them and so is the manifest, but
the archive cuts names at a null character, while the manifest shows paths as they were given. Paths
are checked as they were given too, so a path that is safe can become a name that is not.

* `Manifest.Describes`: the manifest and the entries of an archive agree, and the names are in order
  and safe.
* `Package.Recorded`: what can be relied on for any files by path that were packaged.

Results:
* `ArchiveEntry.name_of_eq_iff`: exactly the names without a null character are not cut.
* `Package.recorded_of_ofFiles`: what is recorded of texts that were packaged.
* `Package.manifest_describes_iff`: a manifest describes its archive exactly when no path has a null
  character; for a compiled request, when no name of a table has one.
-/

namespace EntityScaffold

/-- A path text that leads strictly below a directory and does not turn back. -/
def Path.StaysBelow (s : String) : Prop :=
  Path.isAbsoluteText s = false ∧ ".." ∉ Path.parts s

instance (s : String) : Decidable (Path.StaysBelow s) := by
  unfold Path.StaysBelow
  infer_instance

/-- A record has the size and the digest of an entry. -/
structure FileRecord.Measures (record : FileRecord) (e : ArchiveEntry) : Prop where
  bytes : record.bytes = e.data.size
  sha256 : record.sha256 = Sha256.hexDigest e.data

/-- **A manifest describes an archive**: the names of the entries are the paths of the manifest, in
the same strictly ascending order, they stay below the directory of the archive, and each entry has
the size and the digest of its record. -/
structure Manifest.Describes (m : Manifest) (entries : List ArchiveEntry) : Prop where
  names : entries.map ArchiveEntry.name = m.files.map FileRecord.path
  ascending : entries.Pairwise fun a b => a.name < b.name
  below : ∀ e ∈ entries, Path.StaysBelow e.name
  measures : List.Forall₂ FileRecord.Measures m.files entries

/-! ## Cut names -/

namespace ArchiveEntry

/-- **Exactly the names without a null character are not cut.** -/
theorem name_of_eq_iff {name : String} {data : ByteArray} :
    (ArchiveEntry.of name data).name = name ↔ '\x00' ∉ name.toList := by
  constructor
  · intro h hnull
    have hwhole : name.toList.takeWhile (· ≠ '\x00') = name.toList := by
      rw [← String.toList_ofList (l := name.toList.takeWhile _)]
      exact congrArg String.toList h
    rw [List.takeWhile_eq_self_iff] at hwhole
    simpa using hwhole _ hnull
  · intro h
    rw [of_eq h]

end ArchiveEntry

namespace Package

variable {t t' : FileTree FileBody} {destination : Path} {files : List (String × String)}

/-! ## Files by path -/

/-- What can be relied on for files by path, their manifest and their archive. -/
structure Recorded (files : List (String × String)) (m : Manifest)
    (entries : List ArchiveEntry) : Prop where
  /-- Every path is listed once. -/
  paths : (m.files.map FileRecord.path).Perm (files.map Prod.fst)
  ascending : m.files.Pairwise fun a b => a.path < b.path
  below : ∀ record ∈ m.files, Path.StaysBelow record.path
  measures : List.Forall₂ FileRecord.Measures m.files entries
  /-- An entry is named by the path in its record, up to a null character. -/
  names : List.Forall₂ (fun (record : FileRecord) e => e = .of record.path e.data) m.files entries

theorem measures_of (f : String × String) :
    (FileRecord.of f.1 f.2).Measures (.of f.1 f.2.toUTF8) := ⟨rfl, rfl⟩

/-- **What is recorded of texts that were packaged.** -/
theorem recorded_of_ofFiles {m : Manifest} (hkeys : (files.map Prod.fst).Nodup)
    (hdestination : destination ≠ []) (h : ofFiles t files destination = (t', .ok m)) :
    ∃ entries, t'.read destination = .ok (.archive entries) ∧ Recorded files m entries := by
  obtain ⟨hwritten, rfl, hsafe⟩ := written_of_ofFiles hdestination h
  refine ⟨_, FileTree.read_eq_ok_iff.mpr hwritten.find, ?_⟩
  constructor
  · rw [List.map_map]
    exact (List.mergeSort_perm files _).map Prod.fst
  · exact List.pairwise_map.mpr (pairwise_ordered hkeys)
  · intro record hrecord
    obtain ⟨f, hf, rfl⟩ := List.mem_map.mp hrecord
    unfold firstUnsafe? at hsafe
    rw [Option.map_eq_none_iff, List.find?_eq_none] at hsafe
    have hrelative := hsafe f hf
    rw [Bool.not_eq_true, Option.isNone_eq_false_iff, Option.isSome_iff_exists] at hrelative
    obtain ⟨names, hnames⟩ := hrelative
    obtain ⟨rfl, habsolute, hdots, -⟩ := Path.relativeParts?_eq_some_iff.mp hnames
    exact ⟨habsolute, hdots⟩
  · rw [List.forall₂_map_left_iff, List.forall₂_map_right_iff, List.forall₂_same]
    exact fun f _ => measures_of f
  · rw [List.forall₂_map_left_iff, List.forall₂_map_right_iff, List.forall₂_same]
    exact fun f _ => rfl

/-- Entries have the paths of their records for names exactly when no path is cut. -/
theorem map_name_eq_iff {records : List FileRecord} {entries : List ArchiveEntry}
    (h : List.Forall₂ (fun (record : FileRecord) e => e = .of record.path e.data) records entries) :
    entries.map ArchiveEntry.name = records.map FileRecord.path ↔
      ∀ path ∈ records.map FileRecord.path, '\x00' ∉ path.toList := by
  induction h with
  | nil => simp
  | @cons record e records entries hname _ ih =>
    have hhead : e.name = record.path ↔ '\x00' ∉ record.path.toList := by
      rw [hname]
      exact ArchiveEntry.name_of_eq_iff
    rw [List.map_cons, List.map_cons, List.cons.injEq, List.forall_mem_cons, hhead, ih]

theorem Recorded.names_eq_iff {m : Manifest} {entries : List ArchiveEntry}
    (h : Recorded files m entries) :
    entries.map ArchiveEntry.name = m.files.map FileRecord.path ↔
      ∀ f ∈ files, '\x00' ∉ f.1.toList := by
  rw [map_name_eq_iff h.names]
  simp only [h.paths.mem_iff, List.forall_mem_map]

/-- **A manifest describes its archive exactly when no path has a null character.** -/
theorem Recorded.describes_iff {m : Manifest} {entries : List ArchiveEntry}
    (h : Recorded files m entries) :
    m.Describes entries ↔ ∀ f ∈ files, '\x00' ∉ f.1.toList := by
  rw [← h.names_eq_iff]
  refine ⟨Manifest.Describes.names, fun hnames => ?_⟩
  have hascending : (m.files.map FileRecord.path).Pairwise (· < ·) :=
    List.pairwise_map.mpr h.ascending
  refine ⟨hnames, List.pairwise_map.mp (hnames ▸ hascending), fun e he => ?_, h.measures⟩
  have hmem : e.name ∈ m.files.map FileRecord.path := hnames ▸ List.mem_map_of_mem he
  obtain ⟨record, hrecord, heq⟩ := List.mem_map.mp hmem
  exact heq ▸ h.below record hrecord

/-! ## Compiled requests -/

/-- The paths of a request are without null characters exactly when the names of its tables are. -/
theorem null_not_mem_files_iff {r : Request} (hr : r.WellNamed) :
    (∀ f ∈ r.compile.files, '\x00' ∉ f.1.toList) ↔
      ∀ table ∈ r.validTables, '\x00' ∉ table.name.toList := by
  have hplace : ∀ kind : ArtifactKind, '\x00' ∉ kind.place ++ ".cs".toList := by
    intro kind
    cases kind <;> decide
  have hpath := Request.mem_path_iff hr (c := '\x00') (by decide) (by decide) (by decide) hplace
  have hkeys : ∀ path, path ∈ r.compile.files.map Prod.fst ↔ path ∈ r.artifacts.map Prod.fst := by
    intro path
    rw [Request.files_compile]
    exact mem_keys_collectMembers
  have hfiles : (∃ f ∈ r.compile.files, '\x00' ∈ f.1.toList) ↔
      ∃ f ∈ r.artifacts, '\x00' ∈ f.1.toList := by
    have hmap := fun path => and_congr_left' (c := '\x00' ∈ path.toList) (hkeys path)
    simpa only [List.mem_map, exists_exists_and_eq_and] using exists_congr hmap
  have hboth := not_congr (hfiles.trans hpath)
  push Not at hboth
  exact hboth

/-- **Manifests and archives.** What is packaged from files by path, or from a compiled request, is
read back as an archive with the entries that were recorded. The manifest lists every path once, in
strictly ascending order, and each record has the size and the digest of its entry. It describes the
archive exactly when no path has a null character; for a request whose names are fit, when no name
of a valid table has one. -/
theorem manifest_describes_iff (t : FileTree FileBody) {destination : Path}
    (hdestination : destination ≠ []) :
    (∀ (files : List (String × String)) t' m, (files.map Prod.fst).Nodup →
      ofFiles t files destination = (t', .ok m) →
      ∃ entries, t'.read destination = .ok (.archive entries) ∧ Recorded files m entries ∧
        (m.Describes entries ↔ ∀ f ∈ files, '\x00' ∉ f.1.toList)) ∧
    ∀ (r : Request) t' c, c.success = true →
      r.compileToPackage t destination = (t', .ok c) →
      ∃ m entries, c.manifest = some m ∧ t'.read destination = .ok (.archive entries) ∧
        Recorded c.files m entries ∧
        (m.Describes entries ↔ ∀ f ∈ c.files, '\x00' ∉ f.1.toList) ∧
        (r.WellNamed → (m.Describes entries ↔
          ∀ table ∈ r.validTables, '\x00' ∉ table.name.toList)) := by
  constructor
  · intro files t' m hkeys h
    obtain ⟨entries, hread, hrecorded⟩ := recorded_of_ofFiles hkeys hdestination h
    exact ⟨entries, hread, hrecorded, hrecorded.describes_iff⟩
  · intro r t' c hsuccess h
    have htables : r.validTables ≠ [] := by
      intro hnone
      rw [r.compileToPackage_of_no_tables hnone] at h
      cases h
      exact Request.success_compile_iff.mp hsuccess hnone
    obtain ⟨-, m, hmanifest, hfiles, hpackage⟩ := Request.compileToPackage_eq_ok htables h
    obtain ⟨entries, hread, hrecorded⟩ :=
      recorded_of_ofFiles (Request.nodup_keys_files r) hdestination hpackage
    rw [hfiles]
    exact ⟨m, entries, hmanifest, hread, hrecorded, hrecorded.describes_iff,
      fun hr => hrecorded.describes_iff.trans (null_not_mem_files_iff hr)⟩

/-- A path that is no double dot is cut to one: it is packaged, and listed as it was given. -/
theorem manifest_describes_iff_double_dot :
    ∃ t' m e, ofFiles {} [("..\x00a", "b")] ["", "p.zip"] = (t', .ok m) ∧
      t'.read ["", "p.zip"] = .ok (.archive [e]) ∧ e.name = ".." ∧
      m.files.map FileRecord.path = ["..\x00a"] ∧ ¬ m.Describes [e] := by
  have hpackaged : (ofFiles {} [("..\x00a", "b")] ["", "p.zip"]).2.toBool = true := by
    simp only [ofFiles, firstUnsafe?, ordered, List.mergeSort_singleton]
    decide +kernel
  rcases hresult : ofFiles {} [("..\x00a", "b")] ["", "p.zip"] with ⟨t', e | m⟩
  · rw [hresult] at hpackaged
    cases hpackaged
  have hdestination : ["", "p.zip"] ≠ [] := by decide
  obtain ⟨hfiles, -⟩ := manifest_describes_iff {} hdestination
  obtain ⟨entries, hread, hrecorded, hdescribes⟩ := hfiles _ t' m (by decide) hresult
  have hpaths : m.files.map FileRecord.path = ["..\x00a"] := List.perm_singleton.mp hrecorded.paths
  obtain ⟨record, hrecord, hpath⟩ := List.map_eq_singleton_iff.mp hpaths
  have hnames := hrecorded.names
  rw [hrecord] at hnames
  obtain ⟨e, rest, he, hrest, rfl⟩ := List.forall₂_cons_left_iff.mp hnames
  obtain rfl := List.forall₂_nil_left_iff.mp hrest
  refine ⟨t', m, e, rfl, hread, ?_, hpaths, fun hall => ?_⟩
  · rw [he, hpath]
    show String.ofList ("..\x00a".toList.takeWhile (· ≠ '\x00')) = ".."
    decide
  · exact hdescribes.mp hall _ (List.mem_singleton_self _) (by decide)

end Package

end EntityScaffold
