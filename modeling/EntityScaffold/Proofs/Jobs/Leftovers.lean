import EntityScaffold.Proofs.Jobs.Footprints

/-!
# What is there of a job

A job makes two things, its staging directory and its package. This module says what each call does
to them.

* `AreaFree`, `AreaMade`: the staging directory is not there, or can be removed.
* `PackageFree`, `PackageLoose`: the package is not there, or is not there or can be removed.

Results:
* `areaMade_create`, `areaFree_create`: the directory is made or not.
* `packageLoose_archive`, `packageFree_archive`: the package is made or not.
* `areaFree_remove`, `packageFree_discard`: both can be removed.
-/

namespace EntityScaffold

open Standing

variable {s : PipelineSetup} {job : String} {tree tree' : FileTree FileBody}

/-- Nothing is in the staging directory of a job, and it is not there itself. -/
def AreaFree (s : PipelineSetup) (job : String) (tree : FileTree FileBody) : Prop :=
  ∀ q, areaPlace s job <+: q → tree.node? q = none

/-- The staging directory of a job is there. -/
def AreaMade (s : PipelineSetup) (job : String) (tree : FileTree FileBody) : Prop :=
  tree.find (areaPlace s job) = .ok (areaPlace s job, .directory)

/-- Nothing is at the place of a job's package. -/
def PackageFree (s : PipelineSetup) (job : String) (tree : FileTree FileBody) : Prop :=
  tree.node? (s.destination job).collapsed = none

/-- Nothing is at the place of a job's package, or a file that can be removed. -/
def PackageLoose (s : PipelineSetup) (job : String) (tree : FileTree FileBody) : Prop :=
  PackageFree s job tree ∨
    ∃ c, tree.find (s.destination job) = .ok ((s.destination job).collapsed, .file c)

/-! ## Changes elsewhere -/

theorem AreaFree.of_spares (h : AreaFree s job tree) (hspares : SparesArea s job tree tree') :
    AreaFree s job tree' :=
  fun q hq => (hspares.nodes q hq).trans (h q hq)

/-- The staging directory is there as long as the directories that lead to it are. -/
theorem AreaMade.of_directories (h : AreaMade s job tree)
    (hdirectories : ∀ q, q <+: areaPlace s job → tree.isDirectory q = true →
      tree'.isDirectory q = true) : AreaMade s job tree' := by
  obtain ⟨hwalk, hnode⟩ := FileTree.find_eq_ok_iff.mp h
  refine FileTree.find_eq_ok_iff.mpr ⟨FileTree.walk_mono (fun q hq => ?_) hwalk, ?_⟩
  · have hprefix : q <+: areaPlace s job := by
      unfold areaPlace at hq ⊢
      rw [List.dropLast_concat, ← Path.collapsed_collapsed] at hq
      rw [← Path.collapsed_collapsed]
      exact hq.isPrefix.trans (List.prefix_append _ _)
    exact hdirectories q hprefix
  · exact FileTree.isDirectory_iff.mp
      (hdirectories _ (List.prefix_refl _) (FileTree.isDirectory_iff.mpr hnode))

theorem PackageFree.of_spares (h : PackageFree s job tree)
    (hspares : SparesPackage s job tree tree') : PackageFree s job tree' :=
  hspares.node.trans h

theorem PackageLoose.of_spares (h : PackageLoose s job tree)
    (hspares : SparesPackage s job tree tree') : PackageLoose s job tree' := by
  rcases h with hfree | ⟨c, hfind⟩
  · exact .inl (hfree.of_spares hspares)
  · refine .inr ⟨c, FileTree.find_mono (fun q hq hdir => ?_) hspares.node hfind⟩
    rw [PipelineSetup.destination, List.dropLast_concat] at hq
    exact hspares.ways q hq hdir

/-! ## Calls of the job -/

section Calls

variable {c : WorkerCall} {a : StagingArea}

/-- Only the removal of a staging directory takes directories away. -/
theorem isDirectory_effect (hpack : s.pack = Package.ofDirectory) (hne : s.packageDirectory ≠ [])
    (ha : a.IsPlace) (hwork : c.work ≠ .remove) {q : Path} (hq : tree.isDirectory q = true) :
    (effect s tree c a).1.isDirectory q = true := by
  unfold effect Pipeline.perform
  cases hc : c.work with
  | create => exact (FileTree.grown_makeDirectories tree a.path).isDirectory hq
  | write path text =>
    have hwrite := a.isDirectory_write ha.ne_nil path text hq
    simp only
    split <;> rename_i heq <;> rw [heq] at hwrite <;> exact hwrite
  | archive =>
    simp only [hpack]
    exact (packageMark_archive hne c.job tree a.path).directories q hq
  | discard => exact FileTree.isDirectory_removeFile hq _
  | remove => exact absurd hc hwork

theorem areaMade_effect (hpack : s.pack = Package.ofDirectory) (hne : s.packageDirectory ≠ [])
    (ha : a.IsPlace) (hwork : c.work ≠ .remove) (h : AreaMade s job tree) :
    AreaMade s job (effect s tree c a).1 :=
  h.of_directories fun _ _ => isDirectory_effect hpack hne ha hwork

theorem areaMade_create (ha : a.IsPlace) (hplace : a.path = areaPlace s job)
    (hwork : c.work = .create) (hresult : (effect s tree c a).2.2 = .ok ()) :
    AreaMade s job (effect s tree c a).1 := by
  unfold effect Pipeline.perform at hresult ⊢
  simp only [hwork] at hresult ⊢
  have hmade : (a.create tree).2 = .ok () := by
    cases hcreate : (a.create tree).2 with
    | error e =>
      rw [hcreate] at hresult
      cases hresult
    | ok u => rfl
  have hfind := FileTree.find_of_makeDirectories
    (Prod.ext rfl hmade : tree.makeDirectories a.path = (_, .ok ()))
  rw [ha.collapsed, hplace] at hfind
  unfold AreaMade StagingArea.create
  rw [hplace]
  exact hfind

theorem areaFree_create (hplace : a.path = areaPlace s job) (hwork : c.work = .create)
    {e : PackageError} (hresult : (effect s tree c a).2.2 = .error e)
    (h : AreaFree s job tree) : AreaFree s job (effect s tree c a).1 := by
  unfold effect Pipeline.perform at hresult ⊢
  simp only [hwork] at hresult ⊢
  cases hcreate : (a.create tree).2 with
  | ok u =>
    rw [hcreate] at hresult
    cases hresult
  | error cause =>
    have hgrown := FileTree.grown_of_makeDirectories_error
      (Prod.ext rfl hcreate : tree.makeDirectories a.path = (_, .error cause))
    intro q hq
    refine (hgrown.node?_eq fun hway => ?_).trans (h q hq)
    -- what is made is strictly above the staging directory
    unfold areaPlace at hplace hq
    rw [hplace, List.dropLast_concat, ← Path.collapsed_collapsed] at hway
    have hlength := (hq.trans hway.isPrefix).length_le
    rw [Path.collapsed_collapsed, List.length_append, List.length_singleton] at hlength
    omega

theorem areaFree_remove (hroot : s.stagingRoot ≠ []) (ha : a.IsPlace)
    (hplace : a.path = areaPlace s job) (hwork : c.work = .remove)
    (h : AreaFree s job tree ∨ AreaMade s job tree) :
    AreaFree s job (effect s tree c a).1 := by
  have htree : (effect s tree c a).1 = (tree.removeDirectory a.path).1 := by
    unfold effect Pipeline.perform
    simp only [hwork]
    rfl
  rw [htree]
  intro q hq
  rcases h with hfree | hmade
  · exact FileTree.node?_removeDirectory_of_none (hfree q hq) _
  · unfold AreaMade at hmade
    rw [← hplace] at hmade hq
    have hfind : tree.find a.path = .ok (a.path.collapsed, .directory) := by
      rw [ha.collapsed]
      exact hmade
    rw [FileTree.removeDirectory_of_find hfind, ha.collapsed]
    refine FileTree.node?_prune_of_below tree ?_ hq
    have hpositive := List.length_pos_iff.mpr (Path.collapsed_ne_nil hroot)
    rw [hplace, areaPlace, List.length_append, List.length_singleton]
    omega

theorem packageFree_discard (hjob : c.job = job) (hwork : c.work = .discard)
    (h : PackageLoose s job tree) : PackageFree s job (effect s tree c a).1 := by
  have htree : (effect s tree c a).1 = (tree.removeFile (s.destination job)).1 := by
    unfold effect Pipeline.perform
    simp only [hwork, hjob]
    rfl
  rw [htree]
  rcases h with hfree | ⟨body, hfind⟩
  · exact (FileTree.node?_removeFile_of_none hfree _).trans hfree
  · exact FileTree.node?_removeFile_self hfind

theorem packageLoose_archive (hpack : s.pack = Package.ofDirectory) (ha : a.IsPlace)
    (hjob : c.job = job) (hwork : c.work = .archive)
    (hresult : (effect s tree c a).2.2 = .ok ()) : PackageLoose s job (effect s tree c a).1 := by
  unfold effect Pipeline.perform at hresult ⊢
  simp only [hwork, hpack, hjob] at hresult ⊢
  have hne : s.destination job ≠ [] := by simp [PipelineSetup.destination]
  have hwritten := Package.exists_written_of_ofDirectory ha.collapsed hne
    (Prod.ext rfl hresult : Package.ofDirectory tree a.path (s.destination job) = (_, .ok ()))
  exact .inr ⟨_, hwritten.find⟩

theorem packageFree_archive (hpack : s.pack = Package.ofDirectory) {jobs : String → Prop}
    (hapart : Apart s jobs) (hours : jobs job) (hjob : c.job = job) (hwork : c.work = .archive)
    {e : PackageError} (hresult : (effect s tree c a).2.2 = .error e) (h : PackageFree s job tree) :
    PackageFree s job (effect s tree c a).1 := by
  unfold effect Pipeline.perform at hresult ⊢
  simp only [hwork, hpack, hjob] at hresult ⊢
  have hne : s.destination job ≠ [] := by simp [PipelineSetup.destination]
  have hgrown := Package.grown_of_ofDirectory hne
    (Prod.ext rfl hresult : Package.ofDirectory tree a.path (s.destination job) = (_, .error e))
  rw [parent_destination hapart.directory] at hgrown
  exact (hgrown.node?_eq (hapart.not_onWay_destination hours)).trans h

end Calls

end EntityScaffold
