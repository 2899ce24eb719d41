import EntityScaffold.Proofs.Jobs.Standing
import EntityScaffold.Proofs.Package.Staged

/-!
# Where jobs leave their marks

A job works in its staging directory and on its package, and makes directories on the way to these.
As long as the names of the jobs are new, no job reaches what is another's.

* `stagingPlace`, `areaPlace`, `PipelineSetup.destination`: the places of a job's staging directory,
  below any root or that of a setup, and of its package.
* `Apart`: the names that jobs give are new, and none is given twice.
* `SparesArea`, `SparesPackage`: a change leaves the staging directory of a job, or its package,
  as it is, with the directories above.

Results:
* `Apart.sparesArea`, `Apart.sparesPackage`: the calls of a job spare what is another's, those that
  stage spare the package, and those that package spare the staging directory.
-/

namespace EntityScaffold

/-- The place of a job's staging directory below a root. -/
def stagingPlace (root : Path) (job : String) : Path := root.collapsed ++ [stagingName job]

/-- The place of a job's staging directory. -/
def areaPlace (s : PipelineSetup) (job : String) : Path :=
  s.stagingRoot.collapsed ++ [stagingName job]

/-- The path of a job's package. -/
def PipelineSetup.destination (s : PipelineSetup) (job : String) : Path :=
  s.packageDirectory ++ [packageName job]

/-- The names that the jobs give to directories and packages are new, and none is given twice. -/
structure Apart (s : PipelineSetup) (jobs : String → Prop) : Prop where
  root : s.stagingRoot ≠ []
  directory : s.packageDirectory ≠ []
  plain : ∀ j, jobs j → '/' ∉ j.toList
  kinds : ∀ i j, jobs i → jobs j → stagingName i ≠ packageName j
  stagingFree : ∀ j, jobs j → stagingName j ∉ s.stagingRoot ∧ stagingName j ∉ s.packageDirectory
  packageFree : ∀ j, jobs j → packageName j ∉ s.stagingRoot ∧ packageName j ∉ s.packageDirectory

/-! ## Names -/

theorem toList_stagingName (job : String) :
    (stagingName job).toList = "GeneratedCode_".toList ++ job.toList :=
  String.toList_append

theorem toList_packageName (job : String) :
    (packageName job).toList = "GeneratedCode_".toList ++ (job.toList ++ ".zip".toList) := by
  unfold packageName stagingPrefix
  rw [String.toList_append, String.toList_append, List.append_assoc]

theorem stagingName_injective : Function.Injective stagingName := by
  intro i j h
  have hchars := congrArg String.toList h
  rw [toList_stagingName, toList_stagingName] at hchars
  exact String.toList_inj.mp (List.append_cancel_left hchars)

theorem packageName_injective : Function.Injective packageName := by
  intro i j h
  have hchars := congrArg String.toList h
  rw [toList_packageName, toList_packageName] at hchars
  exact String.toList_inj.mp (List.append_cancel_right (List.append_cancel_left hchars))

theorem packageName_ne_dotdot (job : String) : packageName job ≠ ".." := by
  intro h
  have hlength := congrArg (fun s => s.toList.length) h
  simp [toList_packageName] at hlength

/-- A staging directory has the name of its job. -/
theorem ofText_stagingName (root : Path) {job : String} (h : '/' ∉ job.toList) :
    Path.ofText root (stagingName job) = root ++ [stagingName job] := by
  have hslash : '/' ∉ (stagingName job).toList := by
    rw [toList_stagingName, List.mem_append, not_or]
    exact ⟨by decide, h⟩
  have hpart : Path.IsPart (stagingName job) := by
    refine ⟨fun hempty => ?_, fun hdot => ?_, hslash⟩
    · have hchars := congrArg String.toList hempty
      rw [toList_stagingName] at hchars
      simp at hchars
    · have hchars := congrArg String.toList hdot
      rw [toList_stagingName] at hchars
      simp at hchars
  have hnames : ∀ n ∈ [stagingName job], Path.IsPart n :=
    fun n hn => List.mem_singleton.mp hn ▸ hpart
  have hparts := Path.parts_intercalate hnames (List.cons_ne_nil _ _)
  rw [String.intercalate_singleton] at hparts
  have hrelative : Path.isAbsoluteText (stagingName job) = false := by
    unfold Path.isAbsoluteText
    rw [toList_stagingName]
    rfl
  unfold Path.ofText
  rw [hrelative, if_neg Bool.false_ne_true, hparts]

theorem stagingName_ne_dotdot (job : String) : stagingName job ≠ ".." := by
  intro h
  have hlength := congrArg (fun s => s.toList.length) h
  simp [toList_stagingName] at hlength

/-- Nothing is in the staging directories of two jobs. -/
theorem eq_of_below_stagingPlaces {root : Path} {i j : String} {q : Path}
    (hi : stagingPlace root i <+: q) (hj : stagingPlace root j <+: q) : i = j := by
  have hlength : (stagingPlace root i).length = (stagingPlace root j).length := by
    simp [stagingPlace]
  have heq : stagingPlace root i = stagingPlace root j :=
    List.IsPrefix.eq_of_length (List.prefix_of_prefix_length_le hi hj hlength.le) hlength
  unfold stagingPlace at heq
  exact stagingName_injective (by simpa using heq)

namespace Apart

variable {s : PipelineSetup} {jobs : String → Prop} {i j : String} {q : Path}

theorem path_of_area (h : Apart s jobs) (hj : jobs j) {a : StagingArea}
    (ha : StagingArea.of s.stagingRoot j = .ok ⟨a.path, []⟩) : a.path = areaPlace s j := by
  simp only [StagingArea.of] at ha
  split_ifs at ha
  injection ha with ha
  injection ha with ha
  rw [← ha, ofText_stagingName _ (h.plain j hj),
    Path.collapsed_concat_of_ne h.root (stagingName_ne_dotdot j)]
  rfl

theorem collapsed_destination (h : Apart s jobs) (j : String) :
    (s.destination j).collapsed = s.packageDirectory.collapsed ++ [packageName j] :=
  Path.collapsed_concat_of_ne h.directory (packageName_ne_dotdot j)

theorem mem_areaPlace {n : String} (hn : n ∈ areaPlace s j) :
    n ∈ s.stagingRoot ∨ n = stagingName j := by
  unfold areaPlace at hn
  rw [List.mem_append, List.mem_singleton] at hn
  exact hn.imp_left Path.mem_of_mem_collapsed

theorem mem_destination {n : String} (hn : n ∈ (s.destination j).collapsed) :
    n ∈ s.packageDirectory ∨ n = packageName j := by
  have hmem := Path.mem_of_mem_collapsed hn
  unfold PipelineSetup.destination at hmem
  rwa [List.mem_append, List.mem_singleton] at hmem

theorem stagingName_mem_of_below (hq : areaPlace s j <+: q) : stagingName j ∈ q :=
  hq.subset (List.mem_append_right _ (List.mem_singleton_self _))

/-- Nothing is in the staging directories of two jobs. -/
theorem eq_of_below_areas (hi : areaPlace s i <+: q) (hj : areaPlace s j <+: q) : i = j :=
  have hi' : stagingPlace s.stagingRoot i <+: q := hi
  eq_of_below_stagingPlaces hi' hj

/-- No package is in a staging directory. -/
theorem not_prefix_destination (h : Apart s jobs) (hi : jobs i) (hj : jobs j) :
    ¬ areaPlace s i <+: (s.destination j).collapsed := by
  intro hprefix
  rcases mem_destination (stagingName_mem_of_below hprefix) with hmem | hmem
  · exact (h.stagingFree i hi).2 hmem
  · exact h.kinds i j hi hj hmem

/-- The package directory and what is above it is in no staging directory. -/
theorem not_prefix_of_onWay (h : Apart s jobs) (hi : jobs i)
    (hq : Path.OnWay q s.packageDirectory) :
    ¬ areaPlace s i <+: q :=
  fun hprefix => (h.stagingFree i hi).2 (hq.mem (stagingName_mem_of_below hprefix))

/-- No package is above a staging directory. -/
theorem not_destination_prefix (h : Apart s jobs) (hi : jobs i) (hj : jobs j) :
    ¬ (s.destination j).collapsed <+: areaPlace s i := by
  intro hprefix
  have hmem : packageName j ∈ areaPlace s i := by
    refine hprefix.subset ?_
    rw [h.collapsed_destination]
    exact List.mem_append_right _ (List.mem_singleton_self _)
  rcases mem_areaPlace hmem with hmem | hmem
  · exact (h.packageFree j hj).1 hmem
  · exact h.kinds i j hi hj hmem.symm

/-- No package is above the package directory. -/
theorem not_onWay_destination (h : Apart s jobs) (hj : jobs j) :
    ¬ Path.OnWay (s.destination j).collapsed s.packageDirectory := by
  intro hway
  refine (h.packageFree j hj).2 (hway.mem ?_)
  rw [h.collapsed_destination]
  exact List.mem_append_right _ (List.mem_singleton_self _)

theorem destination_injective (h : Apart s jobs)
    (heq : (s.destination i).collapsed = (s.destination j).collapsed) : i = j := by
  rw [h.collapsed_destination, h.collapsed_destination] at heq
  exact packageName_injective (by simpa using heq)

end Apart

/-! ## Marks -/

section Marks

variable {s : PipelineSetup} {t t' : FileTree FileBody}

/-- A change in a staging directory, with directories above it that were missing. -/
structure StagingMark (place : Path) (t t' : FileTree FileBody) : Prop where
  nodes : ∀ q, t'.node? q = t.node? q ∨ place <+: q ∨
    (t.node? q = none ∧ t'.node? q = some .directory ∧ q <+: place)
  directories : ∀ q, ¬ place <+: q → t.isDirectory q = true → t'.isDirectory q = true

/-- A change of one package, with directories above it that were missing. -/
structure PackageMark (s : PipelineSetup) (job : String) (t t' : FileTree FileBody) : Prop where
  nodes : ∀ q, t'.node? q = t.node? q ∨ q = (s.destination job).collapsed ∨
    (t.node? q = none ∧ t'.node? q = some .directory ∧ Path.OnWay q s.packageDirectory)
  directories : ∀ q, t.isDirectory q = true → t'.isDirectory q = true

theorem StagingMark.of_grown {place : Path} {p : Path} (h : FileTree.Grown t t' p)
    (hway : ∀ q, Path.OnWay q p → place <+: q ∨ q <+: place) : StagingMark place t t' := by
  refine ⟨fun q => ?_, fun q _ hq => h.isDirectory hq⟩
  rcases h q with hsame | ⟨hnone, hdir, hq⟩
  · exact .inl hsame
  · rcases hway q hq with hbelow | habove
    · exact .inr (.inl hbelow)
    · exact .inr (.inr ⟨hnone, hdir, habove⟩)

/-- What is on the way of a path below a place is above the place or below it. -/
theorem prefix_or_prefix_of_onWay {a : StagingArea} (ha : a.IsPlace) {names : List String}
    (hnames : ".." ∉ names) {q : Path} (hq : Path.OnWay q (a.path ++ names)) :
    a.path <+: q ∨ q <+: a.path := by
  rw [← ha.collapsed_append hnames] at hq
  have hprefix := hq.isPrefix
  rw [ha.collapsed_append hnames] at hprefix
  exact List.prefix_or_prefix_of_prefix (List.prefix_append _ _) hprefix

theorem stagingMark_create {a : StagingArea} (ha : a.IsPlace) (t : FileTree FileBody) :
    StagingMark a.path t (a.create t).1 := by
  refine .of_grown (FileTree.grown_makeDirectories t a.path) fun q hq => .inr ?_
  rw [← ha.collapsed] at hq ⊢
  exact hq.isPrefix

theorem stagingMark_write {a : StagingArea} (ha : a.IsPlace) (t : FileTree FileBody)
    (path text : String) : StagingMark a.path t (a.write t path text).1 := by
  have hsame : StagingMark a.path t t := ⟨fun _ => .inl rfl, fun _ _ hq => hq⟩
  unfold StagingArea.write
  cases hnames : Path.relativeParts? path with
  | none => exact hsame
  | some names =>
    obtain ⟨-, -, hdots, hne⟩ := Path.relativeParts?_eq_some_iff.mp hnames
    have hpath : a.path ++ names ≠ [] := by simp [hne]
    -- the directories that are made are on the way of the path
    have hway : ∀ q, Path.OnWay q (Path.parent (a.path ++ names)) →
        a.path <+: q ∨ q <+: a.path := fun q hq =>
      prefix_or_prefix_of_onWay ha hdots (hq.of_prefix (Path.parent_prefix _))
    simp only
    split
    · rename_i t₁ e hwrite
      exact .of_grown (FileTree.grown_of_writeAtomically hpath hwrite) hway
    · rename_i t₁ hwrite
      have hwritten := FileTree.written_of_writeAtomically hpath hwrite
      refine ⟨fun q => ?_, fun q _ hq => hwritten.isDirectory hq⟩
      by_cases hq : q = Path.collapsed (a.path ++ names)
      · rw [ha.collapsed_append hdots] at hq
        exact .inr (.inl (hq ▸ List.prefix_append _ _))
      · rcases hwritten.others q hq with heq | ⟨hnone, hdir, hon⟩
        · exact .inl heq
        · rcases hway q hon with hbelow | habove
          · exact .inr (.inl hbelow)
          · exact .inr (.inr ⟨hnone, hdir, habove⟩)

theorem stagingMark_remove {a : StagingArea} (ha : a.IsPlace) (t : FileTree FileBody) :
    StagingMark a.path t (a.remove t).1 := by
  have hnode : ∀ q, ¬ a.path <+: q → (a.remove t).1.node? q = t.node? q := by
    intro q hq
    refine FileTree.node?_removeDirectory t ?_
    rwa [ha.collapsed]
  refine ⟨fun q => ?_, fun q hq hdir => ?_⟩
  · by_cases hq : a.path <+: q
    · exact .inr (.inl hq)
    · exact .inl (hnode q hq)
  · rw [FileTree.isDirectory_iff, hnode q hq]
    exact FileTree.isDirectory_iff.mp hdir

/-- The package is in the package directory. -/
theorem parent_destination (h : s.packageDirectory ≠ []) (job : String) :
    Path.parent (s.destination job) = s.packageDirectory := by
  have hlength : ¬ (s.destination job).length ≤ 1 := by
    have hpos := List.length_pos_iff.mpr h
    simp [PipelineSetup.destination]
    omega
  unfold Path.parent
  rw [if_neg hlength]
  exact List.dropLast_concat

theorem packageMark_archive (h : s.packageDirectory ≠ []) (job : String) (t : FileTree FileBody)
    (source : Path) :
    PackageMark s job t (Package.ofDirectory t source (s.destination job)).1 := by
  have hsame : PackageMark s job t t := ⟨fun _ => .inl rfl, fun _ hq => hq⟩
  have hne : s.destination job ≠ [] := by simp [PipelineSetup.destination]
  unfold Package.ofDirectory
  split
  · exact hsame
  · split
    · exact hsame
    · rename_i place _
      rcases hwrite : Package.writeArchive t (s.destination job)
        (.ok (.archive (Package.entriesBelow t place))) with ⟨t₁, e | u⟩
      · have hgrown := (Package.grown_of_writeArchive hne hwrite).2
        rw [parent_destination h] at hgrown
        exact ⟨fun q => (hgrown q).imp_right .inr, fun q hq => hgrown.isDirectory hq⟩
      · obtain ⟨body, -, hwritten⟩ := Package.written_of_writeArchive hne hwrite
        refine ⟨fun q => ?_, fun q hq => hwritten.isDirectory hq⟩
        by_cases hq : q = (s.destination job).collapsed
        · exact .inr (.inl hq)
        · have hothers := hwritten.others q hq
          rw [parent_destination h] at hothers
          exact hothers.imp_right .inr
  · exact hsame

theorem packageMark_discard (s : PipelineSetup) (job : String) (t : FileTree FileBody) :
    PackageMark s job t (t.removeFile (s.destination job)).1 := by
  refine ⟨fun q => ?_, fun q hq => ?_⟩
  · by_cases hq : q = (s.destination job).collapsed
    · exact .inr (.inl hq)
    · exact .inl (FileTree.node?_removeFile t hq)
  · exact FileTree.isDirectory_removeFile hq _

/-! ## What is spared -/

/-- A change leaves the staging directory of a job and the directories above it as they are. -/
structure SparesArea (s : PipelineSetup) (job : String) (t t' : FileTree FileBody) : Prop where
  nodes : ∀ q, areaPlace s job <+: q → t'.node? q = t.node? q
  above : ∀ q, q <+: areaPlace s job → t.isDirectory q = true → t'.isDirectory q = true

/-- A change leaves the package of a job and the directories that lead there as they are. -/
structure SparesPackage (s : PipelineSetup) (job : String) (t t' : FileTree FileBody) : Prop where
  node : t'.node? (s.destination job).collapsed = t.node? (s.destination job).collapsed
  ways : ∀ q, Path.OnWay q s.packageDirectory → t.isDirectory q = true → t'.isDirectory q = true

theorem SparesArea.refl (s : PipelineSetup) (job : String) (t : FileTree FileBody) :
    SparesArea s job t t := ⟨fun _ _ => rfl, fun _ _ hdir => hdir⟩

theorem SparesPackage.refl (s : PipelineSetup) (job : String) (t : FileTree FileBody) :
    SparesPackage s job t t := ⟨rfl, fun _ _ hdir => hdir⟩

namespace Apart

variable {jobs : String → Prop} {i j : String}

theorem sparesArea_of_stagingMark (hij : i ≠ j)
    (hmark : StagingMark (areaPlace s i) t t') : SparesArea s j t t' := by
  have hfar : ∀ q, areaPlace s j <+: q → ¬ areaPlace s i <+: q :=
    fun q hj hi => hij (eq_of_below_areas hi hj)
  refine ⟨fun q hq => ?_, fun q hq hdir => hmark.directories q (fun hi => ?_) hdir⟩
  · rcases hmark.nodes q with hsame | hi | ⟨-, -, habove⟩
    · exact hsame
    · exact absurd hi (hfar q hq)
    · exact absurd (List.prefix_refl _) (hfar _ (hq.trans habove))
  · exact hfar _ (List.prefix_refl _) (hi.trans hq)

theorem sparesArea_of_packageMark (h : Apart s jobs) (hi : jobs i) (hj : jobs j)
    (hmark : PackageMark s i t t') : SparesArea s j t t' := by
  refine ⟨fun q hq => ?_, fun q _ hdir => hmark.directories q hdir⟩
  rcases hmark.nodes q with hsame | rfl | ⟨-, -, hway⟩
  · exact hsame
  · exact absurd hq (h.not_prefix_destination hj hi)
  · exact absurd hq (h.not_prefix_of_onWay hj hway)

theorem sparesPackage_of_stagingMark (h : Apart s jobs) (hi : jobs i) (hj : jobs j)
    (hmark : StagingMark (areaPlace s i) t t') : SparesPackage s j t t' := by
  refine ⟨?_, fun q hq hdir => hmark.directories q (h.not_prefix_of_onWay hi hq) hdir⟩
  rcases hmark.nodes (s.destination j).collapsed with hsame | hbelow | ⟨-, -, habove⟩
  · exact hsame
  · exact absurd hbelow (h.not_prefix_destination hi hj)
  · exact absurd habove (h.not_destination_prefix hi hj)

theorem sparesPackage_of_packageMark (h : Apart s jobs) (hj : jobs j) (hij : i ≠ j)
    (hmark : PackageMark s i t t') : SparesPackage s j t t' := by
  refine ⟨?_, fun q _ hdir => hmark.directories q hdir⟩
  rcases hmark.nodes (s.destination j).collapsed with hsame | heq | ⟨-, -, hway⟩
  · exact hsame
  · exact absurd (h.destination_injective heq).symm hij
  · exact absurd hway (h.not_onWay_destination hj)

end Apart

/-! ## Calls -/

/-- The call works in the staging directory. -/
def Work.stages : Work → Bool
  | .create => true
  | .write .. => true
  | .remove => true
  | _ => false

open Standing

theorem stagingMark_effect {a : StagingArea} (ha : a.IsPlace) {c : WorkerCall}
    (hwork : c.work.stages = true) : StagingMark a.path t (effect s t c a).1 := by
  unfold effect Pipeline.perform
  cases hc : c.work with
  | create => exact stagingMark_create ha t
  | remove => exact stagingMark_remove ha t
  | write path text =>
    have hmark := stagingMark_write ha t path text
    simp only
    split
    · rename_i t₁ area r hwrite
      rw [hwrite] at hmark
      exact hmark
    · rename_i t₁ e hwrite
      rw [hwrite] at hmark
      exact hmark
  | archive => simp [hc, Work.stages] at hwork
  | discard => simp [hc, Work.stages] at hwork

theorem packageMark_effect (hpack : s.pack = Package.ofDirectory) (hne : s.packageDirectory ≠ [])
    {a : StagingArea} {c : WorkerCall} (hwork : c.work.stages = false) :
    PackageMark s c.job t (effect s t c a).1 := by
  unfold effect Pipeline.perform
  cases hc : c.work with
  | archive =>
    simp only [hpack]
    exact packageMark_archive hne c.job t a.path
  | discard => exact packageMark_discard s c.job t
  | create => simp [hc, Work.stages] at hwork
  | remove => simp [hc, Work.stages] at hwork
  | write path text => simp [hc, Work.stages] at hwork

/-- **Calls keep the places of a tree different.** -/
theorem keyed_effect (hpack : s.pack = Package.ofDirectory) (h : t.Keyed) (c : WorkerCall)
    (a : StagingArea) : (effect s t c a).1.Keyed := by
  unfold effect Pipeline.perform
  cases c.work with
  | create => exact FileTree.keyed_makeDirectories h _
  | remove => exact FileTree.keyed_removeDirectory h _
  | discard => exact FileTree.keyed_removeFile h _
  | archive =>
    simp only [hpack]
    exact Package.keyed_ofDirectory h _ _
  | write path text =>
    have hwrite := a.keyed_write h path text
    simp only
    split <;> rename_i heq <;> rw [heq] at hwrite <;> exact hwrite

end Marks

namespace Apart

open Standing

variable {s : PipelineSetup} {jobs : String → Prop} {t : FileTree FileBody} {c : WorkerCall}
  {a : StagingArea} {j : String}

theorem isPlace (h : Apart s jobs) (ha : StagingArea.of s.stagingRoot j = .ok ⟨a.path, []⟩) :
    a.IsPlace :=
  have hplace := StagingArea.isPlace_of h.root ha
  ⟨hplace.collapsed, hplace.ne_nil⟩

/-- A call that stages works in the staging directory of its job. -/
theorem stagingMark (h : Apart s jobs) (hc : jobs c.job)
    (ha : StagingArea.of s.stagingRoot c.job = .ok ⟨a.path, []⟩) (hwork : c.work.stages = true) :
    StagingMark (areaPlace s c.job) t (effect s t c a).1 :=
  h.path_of_area hc ha ▸ stagingMark_effect (h.isPlace ha) hwork

/-- **A call of another job spares the staging directory.** -/
theorem sparesArea (h : Apart s jobs) (hpack : s.pack = Package.ofDirectory) (hj : jobs j)
    (hc : jobs c.job) (hne : c.job ≠ j)
    (ha : StagingArea.of s.stagingRoot c.job = .ok ⟨a.path, []⟩) :
    SparesArea s j t (effect s t c a).1 := by
  cases hwork : c.work.stages with
  | true => exact sparesArea_of_stagingMark hne (h.stagingMark hc ha hwork)
  | false => exact h.sparesArea_of_packageMark hc hj (packageMark_effect hpack h.directory hwork)

/-- **A call of another job spares the package.** -/
theorem sparesPackage (h : Apart s jobs) (hpack : s.pack = Package.ofDirectory) (hj : jobs j)
    (hc : jobs c.job) (hne : c.job ≠ j)
    (ha : StagingArea.of s.stagingRoot c.job = .ok ⟨a.path, []⟩) :
    SparesPackage s j t (effect s t c a).1 := by
  cases hwork : c.work.stages with
  | true => exact h.sparesPackage_of_stagingMark hc hj (h.stagingMark hc ha hwork)
  | false =>
    exact h.sparesPackage_of_packageMark hj hne (packageMark_effect hpack h.directory hwork)

/-- What stages spares the job's own package. -/
theorem sparesPackage_of_stages (h : Apart s jobs) (hc : jobs c.job)
    (ha : StagingArea.of s.stagingRoot c.job = .ok ⟨a.path, []⟩) (hwork : c.work.stages = true) :
    SparesPackage s c.job t (effect s t c a).1 :=
  h.sparesPackage_of_stagingMark hc hc (h.stagingMark hc ha hwork)

/-- What packages spares the job's own staging directory. -/
theorem sparesArea_of_packages (h : Apart s jobs) (hpack : s.pack = Package.ofDirectory)
    (hc : jobs c.job) (hwork : c.work.stages = false) :
    SparesArea s c.job t (effect s t c a).1 :=
  h.sparesArea_of_packageMark hc hc (packageMark_effect hpack h.directory hwork)

end Apart

end EntityScaffold
