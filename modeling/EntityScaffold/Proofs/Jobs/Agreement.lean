import EntityScaffold.Proofs.Jobs.Completion
import EntityScaffold.Proofs.Package.Compiled

/-!
# A job and a compilation give the same package

Compiling a request into a package and running a job for it are two programs that share the
generator and little else. Whatever happens around the job, if it is completed, its package holds
the entries that a compilation of its request puts into the package that it writes.

Results:
* `Pipeline.package_eq_compiled`: the two packages hold the same entries.
-/

namespace EntityScaffold.Pipeline

variable {setup : PipelineSetup} {tree : FileTree FileBody} {events : List Event} {job : String}
  {r : Request}

theorem validTables_ne_nil_of_accepted (h : (job, r) ∈ accepted events) : r.validTables ≠ [] := by
  obtain ⟨e, -, he⟩ := List.mem_filterMap.mp h
  unfold Event.accepted? at he
  split at he
  · split_ifs at he with hvalid
    cases he
    simpa using hvalid
  · cases he

/-- **The package of a completed job is that of a compilation of its request.** Its entries are in
strictly ascending order, and there is one for each file that the compilation keeps. A compilation
into a package writes the same entries: wherever an archive of them can be written it succeeds and
they are read there, and where it cannot, the compilation fails for that reason alone. -/
theorem package_eq_compiled (hfooting : Footing setup tree)
    (hgenerate : setup.generate = Generator.standard) (hpack : setup.pack = Package.ofDirectory)
    (hfresh : FreshNames setup tree ((accepted events).map Prod.fst))
    (hmem : (job, r) ∈ accepted events) (hnamed : r.WellNamed) (hslash : r.NoSlash)
    (hcompleted : (((start setup tree).run events).registry.status job).status = .completed) :
    let p := (start setup tree).run events
    ∃ entries : List ArchiveEntry,
      p.tree.read (p.destination job) = .ok (.archive entries) ∧
      entries.Pairwise (fun a b => a.name < b.name) ∧
      entries.Perm (r.compile.files.map fun f => ⟨f.1, f.2.toUTF8⟩) ∧
      ∀ (t t' : FileTree FileBody) (destination : Path), destination ≠ [] →
        (t.writeAtomically destination (.archive entries) = (t', .ok ()) →
          (∃ report, r.compileToPackage t destination = (t', .ok report)) ∧
            t'.read destination = .ok (.archive entries)) ∧
        ∀ cause, t.writeAtomically destination (.archive entries) = (t', .error cause) →
          r.compileToPackage t destination = (t', .error (.file cause)) := by
  intro p
  have hsetup : p.setup = setup := setup_run (consistent_start setup tree) events
  obtain ⟨hsafe, hread⟩ :=
    (finished_of_completed hfooting hpack hfresh hmem hcompleted).packaged
  have hfiles : (setup.generate r).files = r.artifacts := by
    rw [hgenerate]
    rfl
  rw [hfiles] at hsafe hread
  rw [Request.contents_artifacts hnamed hslash hsafe] at hread
  have hvalid := validTables_ne_nil_of_accepted hmem
  refine ⟨Package.stored r.compile.files, ?_, Package.pairwise_stored r.nodup_keys_files,
    Package.stored_perm _, fun t t' destination hdestination => ⟨fun hwrite => ⟨?_, ?_⟩, ?_⟩⟩
  · unfold destination
    rw [hsetup]
    exact hread
  · exact Request.compileToPackage_of_written hnamed hslash hsafe hvalid hwrite
  · exact FileTree.read_eq_ok_iff.mpr (FileTree.written_of_writeAtomically hdestination hwrite).find
  · exact fun cause hwrite =>
      Request.compileToPackage_of_not_written hnamed hslash hsafe hvalid hwrite

/-- A job for orders, with the six files of its only table and its context. A compilation of its
request into an empty tree succeeds, and its package holds the same entries. -/
theorem package_eq_compiled_order :
    let setup : PipelineSetup := { stagingRoot := ["", "tmp"], packageDirectory := ["", "out"] }
    let id := "6fa459ea-ee8a-3ca4-894e-db77e160355e"
    let request : Request :=
      { tables := [⟨"order", [{ name := "id" }], none⟩], services := false, diExtensions := false }
    let events : List Event := [.submit id request, .resume id] ++
      (List.replicate 8 [.begin 0, .finish 0, .resume id]).flatten
    let p := (start setup {}).run events
    ∃ entries : List ArchiveEntry,
      p.tree.read (p.destination id) = .ok (.archive entries) ∧
      entries.Pairwise (fun a b => a.name < b.name) ∧
      entries.Perm (request.compile.files.map fun f => ⟨f.1, f.2.toUTF8⟩) ∧
      ∃ t report, request.compileToPackage {} ["", "p.zip"] = (t, .ok report) ∧
        t.read ["", "p.zip"] = .ok (.archive entries) := by
  intro setup id request events p
  have hform : ∀ i ∈ [id], HasUuidForm i :=
    fun i hi => List.mem_singleton.mp hi ▸ .of_all (by decide) (by decide)
  have hfooting : Footing setup {} := ⟨by decide, by decide, List.nodup_nil⟩
  have hfresh : FreshNames setup {} ((accepted events).map Prod.fst) :=
    .of_empty (by decide) hform (List.nodup_singleton id) (by decide)
  have hmem : (id, request) ∈ accepted events := List.mem_singleton_self _
  have hnamed : request.WellNamed :=
    ⟨by decide, ⟨by decide, by decide, by decide, by decide⟩⟩
  have hslash : request.NoSlash := by
    unfold Request.NoSlash
    decide
  have hwrite : ∀ body : FileBody,
      (FileTree.writeAtomically {} ["", "p.zip"] body).2 = .ok () := by
    intro body
    with_unfolding_all rfl
  obtain ⟨entries, hread, hascending, hperm, hcompiled⟩ :=
    package_eq_compiled hfooting rfl rfl hfresh hmem hnamed hslash (by decide +kernel)
  obtain ⟨⟨report, hreport⟩, hsame⟩ :=
    (hcompiled {} _ ["", "p.zip"] (by decide)).1 (Prod.ext rfl (hwrite _))
  exact ⟨entries, hread, hascending, hperm, _, report, hreport, hsame⟩

end EntityScaffold.Pipeline
