import EntityScaffold.Proofs.FileNames
import EntityScaffold.Proofs.Jobs.Events
import EntityScaffold.Proofs.Jobs.Footprints

/-!
# Names of jobs

Every job has a name of its own that was drawn for it, and its staging directory and its package
are named for it. When the names are new, the jobs of a pipeline keep out of each other's way.

* `Footing`: the directories of a pipeline and the files that it finds.
* `FreshNames`: names of jobs that are new.
* `HasUuidForm`: the form of a name that was drawn.

Results:
* `FreshNames.apart`: jobs with new names leave their marks at different places.
* `FreshNames.of_uuidForm`: names that were drawn are new as soon as none is repeated and nothing
  has them.
* `isSafeFileName_packageName`: the package of a job with such a name can be fetched.
-/

namespace EntityScaffold

variable {setup : PipelineSetup} {tree : FileTree FileBody} {ids : List String}

/-- What a pipeline stands on: its directories have an anchor, and no place has two nodes. -/
structure Footing (setup : PipelineSetup) (tree : FileTree FileBody) : Prop where
  root : setup.stagingRoot ≠ []
  directory : setup.packageDirectory ≠ []
  keyed : tree.Keyed

/-- The names of jobs are new: none is given twice, and there is no staging directory for one. -/
structure FreshNames (setup : PipelineSetup) (tree : FileTree FileBody) (ids : List String) :
    Prop where
  nodup : ids.Nodup
  plain : ∀ id ∈ ids, '/' ∉ id.toList
  kinds : ∀ i ∈ ids, ∀ j ∈ ids, stagingName i ≠ packageName j
  roots : ∀ id ∈ ids, ∀ n ∈ setup.stagingRoot ++ setup.packageDirectory,
    n ≠ stagingName id ∧ n ≠ packageName id
  staging : ∀ id ∈ ids, ∀ q, areaPlace setup id <+: q → tree.node? q = none

/-- Jobs with new names leave their marks at different places. -/
theorem FreshNames.apart (h : FreshNames setup tree ids) (hfooting : Footing setup tree)
    {jobs : String → Prop} (hjobs : ∀ j, jobs j → j ∈ ids) : Apart setup jobs where
  root := hfooting.root
  directory := hfooting.directory
  plain j hj := h.plain j (hjobs j hj)
  kinds i j hi hj := h.kinds i (hjobs i hi) j (hjobs j hj)
  stagingFree j hj :=
    ⟨fun hmem => (h.roots j (hjobs j hj) _ (List.mem_append_left _ hmem)).1 rfl,
      fun hmem => (h.roots j (hjobs j hj) _ (List.mem_append_right _ hmem)).1 rfl⟩
  packageFree j hj :=
    ⟨fun hmem => (h.roots j (hjobs j hj) _ (List.mem_append_left _ hmem)).2 rfl,
      fun hmem => (h.roots j (hjobs j hj) _ (List.mem_append_right _ hmem)).2 rfl⟩

/-- A request belongs to one job. -/
theorem FreshNames.request_unique {requests : List (String × Request)}
    (h : FreshNames setup tree (requests.map Prod.fst)) {job : String} {r r' : Request}
    (hr : (job, r) ∈ requests) (hr' : (job, r') ∈ requests) : r' = r := by
  have heq := List.inj_on_of_nodup_map h.nodup hr hr' rfl
  exact (Prod.mk.inj heq).2.symm

/-! ## Names that were drawn -/

/-- The form of the text of a UUID. -/
structure HasUuidForm (id : String) : Prop where
  length : id.toList.length = 36
  chars : ∀ c ∈ id.toList, c.isAlphanum = true ∨ c = '-'

theorem HasUuidForm.of_all {id : String} (hlength : id.toList.length = 36)
    (hchars : id.toList.all (fun c => c.isAlphanum || c == '-') = true) : HasUuidForm id := by
  refine ⟨hlength, fun c hc => ?_⟩
  simpa using List.all_eq_true.mp hchars c hc

theorem HasUuidForm.not_mem {id : String} (h : HasUuidForm id) {c : Char}
    (hc : c.isAlphanum = false) (hhyphen : c ≠ '-') : c ∉ id.toList := by
  intro hmem
  rcases h.chars c hmem with halnum | heq
  · rw [hc] at halnum
    cases halnum
  · exact hhyphen heq

/-- Names that were drawn are new when none is repeated and nothing has them. -/
theorem FreshNames.of_uuidForm (hform : ∀ id ∈ ids, HasUuidForm id) (hnodup : ids.Nodup)
    (hroots : ∀ id ∈ ids, ∀ n ∈ setup.stagingRoot ++ setup.packageDirectory,
      n ≠ stagingName id ∧ n ≠ packageName id)
    (hstaging : ∀ id ∈ ids, ∀ q, areaPlace setup id <+: q → tree.node? q = none) :
    FreshNames setup tree ids := by
  refine ⟨hnodup, fun id hid => (hform id hid).not_mem rfl (by decide), fun i hi j hj heq => ?_,
    hroots, hstaging⟩
  have hlength := congrArg (fun s => s.toList.length) heq
  simp only [toList_stagingName, toList_packageName, List.length_append, (hform i hi).length,
    (hform j hj).length] at hlength
  exact absurd hlength (by decide)

/-- Where there are no files at all, it is enough that the directories do not have the names. -/
theorem FreshNames.of_empty (hroot : setup.stagingRoot ≠ []) (hform : ∀ id ∈ ids, HasUuidForm id)
    (hnodup : ids.Nodup)
    (hroots : ∀ id ∈ ids, ∀ n ∈ setup.stagingRoot ++ setup.packageDirectory,
      n ≠ stagingName id ∧ n ≠ packageName id) :
    FreshNames setup {} ids := by
  refine .of_uuidForm hform hnodup hroots fun id _ q hq => ?_
  have hpositive := List.length_pos_iff.mpr (Path.collapsed_ne_nil hroot)
  have hlength : ¬ q.length ≤ 1 := by
    have hle := hq.length_le
    unfold areaPlace at hle
    rw [List.length_append, List.length_singleton] at hle
    omega
  unfold FileTree.node?
  rw [if_neg hlength]
  rfl

namespace Text

theorem hasDoubleDot_append {front : List Char} (h : '.' ∉ front) (back : List Char) :
    hasDoubleDot (front ++ back) = hasDoubleDot back := by
  induction front with
  | nil => rfl
  | cons c front ih =>
    rw [List.mem_cons, not_or] at h
    rw [List.cons_append, ← ih h.2]
    conv_lhs => unfold hasDoubleDot
    split
    · rename_i heq
      exact absurd (List.cons.inj heq).1.symm h.1
    · rename_i heq
      rw [← (List.cons.inj heq).2]
    · rename_i heq
      cases heq

end Text

/-- The package of a job has a plain file name. -/
theorem isFileName_packageName {id : String} (h : HasUuidForm id) :
    Text.IsFileName (packageName id).toList where
  length := by simp [toList_packageName, h.length]
  characters := by
    intro c hc
    rw [toList_packageName, List.mem_append, List.mem_append] at hc
    rcases hc with hc | hc | hc
    · have hstem : "GeneratedCode_".toList.all
          (fun d => Text.isAsciiAlnum d || d == '.' || d == '_' || d == '-') = true := by decide
      exact Text.isFileNameChar_iff.mp (List.all_eq_true.mp hstem c hc)
    · rcases h.chars c hc with halnum | rfl
      · exact List.mem_append_left _ (Text.isAsciiAlnum_iff.mp halnum)
      · exact Text.isFileNameChar_iff.mp rfl
    · have hending : ".zip".toList.all
          (fun d => Text.isAsciiAlnum d || d == '.' || d == '_' || d == '-') = true := by decide
      exact Text.isFileNameChar_iff.mp (List.all_eq_true.mp hending c hc)
  first := by
    rw [toList_packageName]
    rintro c ⟨⟩
    exact Text.isAsciiAlnum_iff.mp rfl
  dots := by
    have hfront : '.' ∉ "GeneratedCode_".toList ++ id.toList := by
      rw [List.mem_append, not_or]
      exact ⟨by decide, h.not_mem rfl (by decide)⟩
    rw [← Text.hasDoubleDot_iff, toList_packageName, ← List.append_assoc,
      Text.hasDoubleDot_append hfront]
    decide

/-- **The package of a job can be fetched by its name.** -/
theorem isSafeFileName_packageName {id : String} (h : HasUuidForm id) :
    Text.isSafeFileName (packageName id) = true :=
  Text.isSafeFileName_iff.mpr (.inl (isFileName_packageName h))

end EntityScaffold
