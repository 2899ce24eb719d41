import EntityScaffold.Proofs.Jobs.FreshNames
import EntityScaffold.Proofs.Jobs.Leftovers

/-!
# A failed job leaves nothing behind

A task that gives up removes its staging directory, and its package if there may be one. A
cancellation can come between: the task stops waiting at once, but a call that was begun goes on,
and one that was not is perhaps never made. `Standing.fragile` tells when a cancellation can leave
something behind for that reason: while the staging directory is made, while a file is staged, while
the task waits for the writer of its archive, and while a removal has not begun. A job that is not
cancelled at such a moment leaves nothing behind when it fails.

* `Standing.fragile`: a cancellation can leave something behind now.
* `Tidy`: what is there of a job, stage by stage; `Leaving`: what is there and yet to be removed
  when the task does not come back to it.

Results:
* `neat_happens`, `neat_cancel`: everything that is there is going to be removed.
* `Pipeline.nothing_left_of_failed`: nothing is there of a job that has failed.
-/

namespace EntityScaffold

open Standing

variable {s : PipelineSetup} {taken : String → Request → Prop} {v v' : Standing} {t : Task}

namespace Standing

/-- A cancellation can leave something behind now. -/
def fragile (v : Standing) : Bool :=
  match v.task with
  | none => false
  | some t =>
    match t.stage, t.signal with
    | .creating, none => true
    | .creating, some (.done (.ok ())) => true
    | .writing _, _ => !v.calls.isEmpty
    | .settling, _ => true
    | .discarding, _ => v.calls.any (!·.begun)
    | .removing _, _ => v.calls.any (!·.begun)
    | _, _ => false

/-- The job is completed. -/
def IsCompleted (v : Standing) : Prop := ∃ r, v.record = some r ∧ r.status = .completed

/-- Nothing is there of the job. -/
def Clear (s : PipelineSetup) (v : Standing) : Prop :=
  AreaFree s v.job v.tree ∧ PackageFree s v.job v.tree

/-- The staging directory is there and no package. -/
def Stages (s : PipelineSetup) (v : Standing) : Prop :=
  AreaMade s v.job v.tree ∧ PackageFree s v.job v.tree

/-- The staging directory is there and perhaps a package. -/
def Boxes (s : PipelineSetup) (v : Standing) : Prop :=
  AreaMade s v.job v.tree ∧ PackageLoose s v.job v.tree

end Standing

/-- What is there of a job and yet to be removed by calls that cannot be taken back. -/
structure Leaving (s : PipelineSetup) (v : Standing) : Prop where
  works : ∀ c ∈ v.calls, (c.work = .remove ∧ (c.begun = true ∨ c.awaited = true)) ∨
    (c.work = .discard ∧ c.begun = true)
  area : AreaFree s v.job v.tree ∨
    (AreaMade s v.job v.tree ∧ ∃ c ∈ v.calls, c.work = .remove)
  package : v.IsCompleted ∨ PackageFree s v.job v.tree ∨
    (PackageLoose s v.job v.tree ∧ ∃ c ∈ v.calls, c.work = .discard)

/-- What is there of a job, by the stage of its task. -/
def Tidy (s : PipelineSetup) (v : Standing) (t : Task) : Prop :=
  match t.stage, t.signal with
  | .scheduled, _ => v.calls = [] ∧ v.Clear s
  | .waiting, _ => v.calls = [] ∧ v.Clear s
  | .creating, none => v.Waited .create ∧ v.Clear s
  | .creating, some (.done (.ok ())) => v.calls = [] ∧ v.Stages s
  | .creating, some _ => v.calls = [] ∧ v.Clear s
  | .writing _, none => (∃ path text, v.Waited (.write path text)) ∧ v.Stages s
  | .writing _, some _ => v.calls = [] ∧ v.Stages s
  | .packaging, none => v.Waited .archive ∧ v.Stages s
  | .packaging, some (.done (.ok ())) => v.calls = [] ∧ v.Boxes s
  | .packaging, some (.done (.error _)) => v.calls = [] ∧ v.Stages s
  | .packaging, some .cancelled =>
    (v.Waited .archive ∧ v.Stages s) ∨ (v.calls = [] ∧ v.Boxes s)
  | .settling, none => v.Waited .archive ∧ v.Stages s
  | .settling, some (.done _) => v.calls = [] ∧ v.Boxes s
  | .settling, some .cancelled => False
  | .discarding, none => v.Waited .discard ∧ v.Boxes s
  | .discarding, some _ => (v.calls = [] ∧ v.Stages s) ∨
    (∃ awaited, v.calls = [{ job := v.job, work := .discard, begun := true, awaited }]) ∧ v.Boxes s
  | .removing _, _ => Leaving s v
  | .ended _, _ => Leaving s v

/-- What is there of a job is going to be removed. -/
structure Neat (s : PipelineSetup) (v : Standing) : Prop where
  unused : v.record = none → v.Clear s
  tidy : ∀ t, v.task = some t → Tidy s v t
  settled : v.task = none → v.record ≠ none → Leaving s v

/-! ## What other things leave -/

section Frames

theorem Standing.Stages.boxes (h : v.Stages s) : v.Boxes s := ⟨h.1, .inl h.2⟩

theorem Standing.Clear.of_spares (h : v.Clear s) (hjob : v'.job = v.job)
    (harea : SparesArea s v.job v.tree v'.tree) (hpackage : SparesPackage s v.job v.tree v'.tree) :
    v'.Clear s := by
  unfold Clear
  rw [hjob]
  exact ⟨h.1.of_spares harea, h.2.of_spares hpackage⟩

theorem Standing.Stages.of_spares (h : v.Stages s) (hjob : v'.job = v.job)
    (harea : SparesArea s v.job v.tree v'.tree) (hpackage : SparesPackage s v.job v.tree v'.tree) :
    v'.Stages s := by
  unfold Stages
  rw [hjob]
  exact ⟨h.1.of_directories harea.above, h.2.of_spares hpackage⟩

theorem Standing.Boxes.of_spares (h : v.Boxes s) (hjob : v'.job = v.job)
    (harea : SparesArea s v.job v.tree v'.tree) (hpackage : SparesPackage s v.job v.tree v'.tree) :
    v'.Boxes s := by
  unfold Boxes
  rw [hjob]
  exact ⟨h.1.of_directories harea.above, h.2.of_spares hpackage⟩

/-- A call as it was, and as it is when a worker may have begun with it. -/
structure Advances (c c' : WorkerCall) : Prop where
  job : c'.job = c.job
  work : c'.work = c.work
  awaited : c'.awaited = c.awaited
  begun : c.begun = true → c'.begun = true

theorem Advances.refl (calls : List WorkerCall) : List.Forall₂ Advances calls calls :=
  List.forall₂_same.mpr fun _ _ => ⟨rfl, rfl, rfl, id⟩

/-- No call of a job is done: workers may begin with its calls, other jobs change files, and the
job stays completed if it is. -/
structure Idles (s : PipelineSetup) (v v' : Standing) : Prop where
  job : v'.job = v.job
  completed : v.IsCompleted → v'.IsCompleted
  calls : List.Forall₂ Advances v.calls v'.calls
  area : SparesArea s v.job v.tree v'.tree
  package : SparesPackage s v.job v.tree v'.tree

/-- Calls and files stay as they are. -/
theorem Idles.of_eq (hjob : v'.job = v.job) (hcompleted : v.IsCompleted → v'.IsCompleted)
    (hcalls : v'.calls = v.calls) (htree : v'.tree = v.tree) : Idles s v v' where
  job := hjob
  completed := hcompleted
  calls := hcalls ▸ Advances.refl _
  area := htree ▸ .refl _ _ _
  package := htree ▸ .refl _ _ _

theorem Idles.exists_before {cs cs' : List WorkerCall} (h : List.Forall₂ Advances cs cs')
    {c' : WorkerCall} (hc' : c' ∈ cs') : ∃ c ∈ cs, Advances c c' := by
  induction h with
  | nil => exact absurd hc' List.not_mem_nil
  | cons hadvances _ ih =>
    rcases List.mem_cons.mp hc' with rfl | hc'
    · exact ⟨_, List.mem_cons_self, hadvances⟩
    · obtain ⟨c, hc, hadvances⟩ := ih hc'
      exact ⟨c, List.mem_cons_of_mem _ hc, hadvances⟩

theorem Idles.exists_work {cs cs' : List WorkerCall} (h : List.Forall₂ Advances cs cs')
    {work : Work} (hwork : ∃ c ∈ cs, c.work = work) : ∃ c ∈ cs', c.work = work := by
  obtain ⟨c, hc, rfl⟩ := hwork
  induction h with
  | nil => exact absurd hc List.not_mem_nil
  | cons hadvances _ ih =>
    rcases List.mem_cons.mp hc with rfl | hc
    · exact ⟨_, List.mem_cons_self, hadvances.work⟩
    · obtain ⟨c', hc', hwork⟩ := ih hc
      exact ⟨c', List.mem_cons_of_mem _ hc', hwork⟩

theorem Idles.none (h : Idles s v v') (hnone : v.calls = []) : v'.calls = [] := by
  have hadvances := h.calls
  rw [hnone] at hadvances
  exact List.forall₂_nil_left_iff.mp hadvances

/-- A call that is alone goes on being alone. -/
theorem Idles.alone (h : Idles s v v') {c : WorkerCall} (hcalls : v.calls = [c]) :
    ∃ c', v'.calls = [c'] ∧ Advances c c' := by
  have hadvances := h.calls
  rw [hcalls] at hadvances
  obtain ⟨c', rest, hc, hrest, hcalls'⟩ := List.forall₂_cons_left_iff.mp hadvances
  rw [List.forall₂_nil_left_iff.mp hrest] at hcalls'
  exact ⟨c', hcalls', hc⟩

theorem Idles.waited (h : Idles s v v') {work : Work} (hwaited : v.Waited work) :
    v'.Waited work := by
  obtain ⟨begun, hcalls⟩ := hwaited
  obtain ⟨⟨job, work', begun', awaited'⟩, hcalls', hjob, hwork, hawaited, -⟩ := h.alone hcalls
  refine ⟨begun', ?_⟩
  cases hjob
  cases hwork
  cases hawaited
  rw [hcalls', h.job]

theorem Standing.IsCompleted.of_record (h : v.IsCompleted) (hrecord : v'.record = v.record) :
    v'.IsCompleted := by
  unfold IsCompleted
  rw [hrecord]
  exact h

theorem Standing.IsCompleted.fail (h : v.IsCompleted) (m : String) : (v.fail m).IsCompleted := by
  obtain ⟨r, hr, hstatus⟩ := h
  unfold Standing.fail
  rw [hr, Option.any_some, if_pos (by rw [hstatus]; rfl)]
  exact ⟨r, hr, hstatus⟩

/-- A task that ends changes neither calls nor files. -/
theorem Idles.conclude (s : PipelineSetup) (v : Standing) (t : Task) (cause : Option GivingUp) :
    Idles s v (v.conclude t cause) := by
  obtain ⟨w, cancelled, hconclude, rfl | ⟨m, rfl⟩⟩ := conclude_cases v t cause
  · rw [hconclude]
    exact .of_eq rfl id rfl rfl
  · rw [hconclude]
    exact .of_eq (fail_job m) (·.fail m) (fail_calls m) (fail_tree m)

theorem Leaving.idles (h : Leaving s v) (hidles : Idles s v v') : Leaving s v' := by
  refine ⟨fun c' hc' => ?_, ?_, ?_⟩
  · obtain ⟨c, hc, hadvances⟩ := Idles.exists_before hidles.calls hc'
    rw [hadvances.work, hadvances.awaited]
    exact (h.works c hc).imp (fun hr => ⟨hr.1, hr.2.imp_left hadvances.begun⟩)
      fun hd => ⟨hd.1, hadvances.begun hd.2⟩
  · rw [hidles.job]
    exact h.area.imp (·.of_spares hidles.area) fun hm =>
      ⟨hm.1.of_directories hidles.area.above, Idles.exists_work hidles.calls hm.2⟩
  · rw [hidles.job]
    exact h.package.imp hidles.completed (Or.imp (·.of_spares hidles.package) fun hl =>
      ⟨hl.1.of_spares hidles.package, Idles.exists_work hidles.calls hl.2⟩)

theorem Leaving.kept (h : Leaving s v) {c : WorkerCall} (hc : c ∈ v.calls) :
    c.begun = true ∨ c.awaited = true :=
  (h.works c hc).elim And.right fun hdiscard => .inl hdiscard.2

/-- What is there of a job stays as it is when nothing happens to the job. -/
theorem Tidy.idles (h : Tidy s v t) (hidles : Idles s v v') : Tidy s v' t := by
  have hclear : v.Clear s → v'.Clear s := (·.of_spares hidles.job hidles.area hidles.package)
  have hstages : v.Stages s → v'.Stages s := (·.of_spares hidles.job hidles.area hidles.package)
  have hboxes : v.Boxes s → v'.Boxes s := (·.of_spares hidles.job hidles.area hidles.package)
  obtain ⟨owner, request, stage, signal, slot⟩ := t
  match stage, signal, h with
  | .scheduled, _, h => exact ⟨hidles.none h.1, hclear h.2⟩
  | .waiting, _, h => exact ⟨hidles.none h.1, hclear h.2⟩
  | .creating, none, h => exact ⟨hidles.waited h.1, hclear h.2⟩
  | .creating, some (.done (.ok ())), h => exact ⟨hidles.none h.1, hstages h.2⟩
  | .creating, some (.done (.error _)), h => exact ⟨hidles.none h.1, hclear h.2⟩
  | .creating, some .cancelled, h => exact ⟨hidles.none h.1, hclear h.2⟩
  | .writing _, none, ⟨⟨path, text, hwaited⟩, h⟩ =>
    exact ⟨⟨path, text, hidles.waited hwaited⟩, hstages h⟩
  | .writing _, some _, h => exact ⟨hidles.none h.1, hstages h.2⟩
  | .packaging, none, h => exact ⟨hidles.waited h.1, hstages h.2⟩
  | .packaging, some (.done (.ok ())), h => exact ⟨hidles.none h.1, hboxes h.2⟩
  | .packaging, some (.done (.error _)), h => exact ⟨hidles.none h.1, hstages h.2⟩
  | .packaging, some .cancelled, h =>
    exact h.imp (fun h => ⟨hidles.waited h.1, hstages h.2⟩)
      fun h => ⟨hidles.none h.1, hboxes h.2⟩
  | .settling, none, h => exact ⟨hidles.waited h.1, hstages h.2⟩
  | .settling, some (.done _), h => exact ⟨hidles.none h.1, hboxes h.2⟩
  | .discarding, none, h => exact ⟨hidles.waited h.1, hboxes h.2⟩
  | .discarding, some _, .inl h => exact .inl ⟨hidles.none h.1, hstages h.2⟩
  | .discarding, some _, .inr ⟨⟨awaited, hcalls⟩, h⟩ =>
    obtain ⟨⟨job, work, begun, awaited'⟩, hcalls', hjob, hwork, -, hbegun⟩ := hidles.alone hcalls
    cases hjob
    cases hwork
    cases hbegun rfl
    exact .inr ⟨⟨awaited', by rw [hcalls', hidles.job]⟩, hboxes h⟩
  | .removing _, _, h => exact Leaving.idles h hidles
  | .ended _, _, h => exact Leaving.idles h hidles

end Frames

/-! ## What calls leave -/

section Workers

variable {jobs : String → Prop} {c : WorkerCall} {a : StagingArea} {calls : List WorkerCall}

/-- A worker is done with a call of the job, which works in the job's staging area. -/
structure Done (s : PipelineSetup) (jobs : String → Prop) (v : Standing) (c : WorkerCall)
    (a : StagingArea) : Prop where
  pack : s.pack = Package.ofDirectory
  apart : Apart s jobs
  ours : jobs v.job
  job : c.job = v.job
  area : StagingArea.of s.stagingRoot v.job = .ok ⟨a.path, []⟩

namespace Done

theorem path (h : Done s jobs v c a) : a.path = areaPlace s v.job :=
  h.apart.path_of_area h.ours h.area

theorem isPlace (h : Done s jobs v c a) : a.IsPlace := h.apart.isPlace h.area

/-- What works in the staging directory spares the package. -/
theorem sparesPackage (h : Done s jobs v c a) (hwork : c.work.stages = true) :
    SparesPackage s v.job v.tree (effect s v.tree c a).1 := by
  have hspares := h.apart.sparesPackage_of_stages (t := v.tree) (a := a) (h.job ▸ h.ours)
    (h.job ▸ h.area) hwork
  exact h.job ▸ hspares

/-- What works on the package spares the staging directory. -/
theorem sparesArea (h : Done s jobs v c a) (hwork : c.work.stages = false) :
    SparesArea s v.job v.tree (effect s v.tree c a).1 := by
  have hspares :=
    h.apart.sparesArea_of_packages (t := v.tree) (a := a) h.pack (h.job ▸ h.ours) hwork
  exact h.job ▸ hspares

theorem areaMade (h : Done s jobs v c a) (hwork : c.work ≠ .remove)
    (hmade : AreaMade s v.job v.tree) : AreaMade s v.job (effect s v.tree c a).1 :=
  areaMade_effect h.pack h.apart.directory h.isPlace hwork hmade

theorem stages_of_create (h : Done s jobs v c a) (hwork : c.work = .create) (hclear : v.Clear s)
    (hresult : (effect s v.tree c a).2.2 = .ok ()) : (v.finish s c a calls).Stages s := by
  unfold Stages
  rw [finish_job, finish_tree]
  exact ⟨areaMade_create h.isPlace h.path hwork hresult,
    hclear.2.of_spares (h.sparesPackage (by rw [hwork]; rfl))⟩

theorem clear_of_create (h : Done s jobs v c a) (hwork : c.work = .create) (hclear : v.Clear s)
    {e : PackageError} (hresult : (effect s v.tree c a).2.2 = .error e) :
    (v.finish s c a calls).Clear s := by
  unfold Clear
  rw [finish_job, finish_tree]
  exact ⟨areaFree_create h.path hwork hresult hclear.1,
    hclear.2.of_spares (h.sparesPackage (by rw [hwork]; rfl))⟩

theorem stages_of_write (h : Done s jobs v c a) {path text : String}
    (hwork : c.work = .write path text) (hstages : v.Stages s) :
    (v.finish s c a calls).Stages s := by
  unfold Stages
  rw [finish_job, finish_tree]
  exact ⟨h.areaMade (by simp [hwork]) hstages.1,
    hstages.2.of_spares (h.sparesPackage (by rw [hwork]; rfl))⟩

theorem stages_of_archive (h : Done s jobs v c a) (hwork : c.work = .archive)
    (hstages : v.Stages s) {e : PackageError} (hresult : (effect s v.tree c a).2.2 = .error e) :
    (v.finish s c a calls).Stages s := by
  unfold Stages
  rw [finish_job, finish_tree]
  exact ⟨h.areaMade (by simp [hwork]) hstages.1,
    packageFree_archive h.pack h.apart h.ours h.job hwork hresult hstages.2⟩

/-- Whether an archive was written or not, it can be removed. -/
theorem boxes_of_archive (h : Done s jobs v c a) (hwork : c.work = .archive)
    (hstages : v.Stages s) : (v.finish s c a calls).Boxes s := by
  cases hresult : (effect s v.tree c a).2.2 with
  | error e => exact (h.stages_of_archive hwork hstages hresult).boxes
  | ok u =>
    unfold Boxes
    rw [finish_job, finish_tree]
    exact ⟨h.areaMade (by simp [hwork]) hstages.1,
      packageLoose_archive h.pack h.isPlace h.job hwork hresult⟩

theorem stages_of_discard (h : Done s jobs v c a) (hwork : c.work = .discard)
    (hboxes : v.Boxes s) : (v.finish s c a calls).Stages s := by
  unfold Stages
  rw [finish_job, finish_tree]
  exact ⟨h.areaMade (by simp [hwork]) hboxes.1, packageFree_discard h.job hwork hboxes.2⟩

variable {front back : List WorkerCall}

/-- Another call is still to be made. -/
theorem exists_work_of_ne {cs : List WorkerCall} (hcs : cs = front ++ c :: back) {work : Work}
    (hne : c.work ≠ work) (h : ∃ d ∈ cs, d.work = work) : ∃ d ∈ front ++ back, d.work = work := by
  obtain ⟨d, hd, rfl⟩ := h
  rw [hcs] at hd
  have hcd : d ≠ c := fun heq => hne (heq ▸ rfl)
  refine ⟨d, ?_, rfl⟩
  simpa [hcd] using hd

/-- Removals leave what is yet to be removed. -/
theorem leaving (h : Done s jobs v c a) (hcalls : v.calls = front ++ c :: back)
    (hleaving : Leaving s v) : Leaving s (v.finish s c a (front ++ back)) := by
  have hc : c ∈ v.calls := by simp [hcalls]
  have hcompleted : v.IsCompleted → (v.finish s c a (front ++ back)).IsCompleted :=
    (·.of_record (finish_record _ _ _ _ _))
  have hworks : ∀ d ∈ front ++ back, (d.work = .remove ∧ (d.begun = true ∨ d.awaited = true)) ∨
      (d.work = .discard ∧ d.begun = true) := by
    intro d hd
    refine hleaving.works d ?_
    rw [hcalls]
    simp only [List.mem_append, List.mem_cons] at hd ⊢
    exact hd.imp_right .inr
  rcases hleaving.works c hc with ⟨hwork, -⟩ | ⟨hwork, -⟩
  · refine ⟨by simpa using hworks, .inl ?_, ?_⟩
    · rw [finish_job, finish_tree]
      exact areaFree_remove h.apart.root h.isPlace h.path hwork
        (hleaving.area.imp_right And.left)
    · have hspares := h.sparesPackage (by rw [hwork]; rfl)
      rw [finish_job, finish_tree, finish_calls]
      exact hleaving.package.imp hcompleted (Or.imp (·.of_spares hspares) fun hloose =>
        ⟨hloose.1.of_spares hspares, exists_work_of_ne hcalls (by simp [hwork]) hloose.2⟩)
  · refine ⟨by simpa using hworks, ?_, ?_⟩
    · have hspares := h.sparesArea (by rw [hwork]; rfl)
      rw [finish_job, finish_tree, finish_calls]
      exact hleaving.area.imp (·.of_spares hspares) fun hmade =>
        ⟨h.areaMade (by simp [hwork]) hmade.1,
          exists_work_of_ne hcalls (by simp [hwork]) hmade.2⟩
    · rw [finish_job, finish_tree]
      exact hleaving.package.imp hcompleted fun hpackage =>
        .inl (packageFree_discard h.job hwork (hpackage.elim .inl And.left))

end Done

/-- What is there of a job when a worker is done with one of its calls. -/
theorem Tidy.finish (h : Tidy s v t) (hdone : Done s jobs v c a) (ht : v.task = some t)
    {front back : List WorkerCall} (hcalls : v.calls = front ++ c :: back) :
    ∃ t', (v.finish s c a (front ++ back)).task = some t' ∧
      Tidy s (v.finish s c a (front ++ back)) t' := by
  have hnone : v.calls ≠ [] := by simp [hcalls]
  obtain ⟨owner, request, stage, signal, slot⟩ := t
  match stage, signal, ht, h with
  | .scheduled, _, _, h => exact absurd h.1 hnone
  | .waiting, _, _, h => exact absurd h.1 hnone
  | .creating, none, ht, h =>
    obtain ⟨hwork, hcalls', ht'⟩ := h.1.finish ht rfl rfl hcalls
    refine ⟨_, ht', ?_⟩
    cases hresult : (effect s v.tree c a).2.2 with
    | ok u => exact ⟨hcalls', hdone.stages_of_create hwork h.2 hresult⟩
    | error e => exact ⟨hcalls', hdone.clear_of_create hwork h.2 hresult⟩
  | .creating, some (.done (.ok ())), _, h => exact absurd h.1 hnone
  | .creating, some (.done (.error _)), _, h => exact absurd h.1 hnone
  | .creating, some .cancelled, _, h => exact absurd h.1 hnone
  | .writing _, none, ht, ⟨⟨path, text, hwaited⟩, h⟩ =>
    obtain ⟨hwork, hcalls', ht'⟩ := hwaited.finish ht rfl rfl hcalls
    exact ⟨_, ht', hcalls', hdone.stages_of_write hwork h⟩
  | .writing _, some _, _, h => exact absurd h.1 hnone
  | .packaging, none, ht, h =>
    obtain ⟨hwork, hcalls', ht'⟩ := h.1.finish ht rfl rfl hcalls
    refine ⟨_, ht', ?_⟩
    cases hresult : (effect s v.tree c a).2.2 with
    | ok u => exact ⟨hcalls', hdone.boxes_of_archive hwork h.2⟩
    | error e => exact ⟨hcalls', hdone.stages_of_archive hwork h.2 hresult⟩
  | .packaging, some (.done (.ok ())), _, h => exact absurd h.1 hnone
  | .packaging, some (.done (.error _)), _, h => exact absurd h.1 hnone
  | .packaging, some .cancelled, ht, .inl ⟨hwaited, h⟩ =>
    obtain ⟨rfl, rfl, begun, rfl⟩ := hwaited.eq_of_calls hcalls
    exact ⟨_, task_finish_of_signal ht (by simp),
      .inr ⟨finish_calls _ _ _ _ _, hdone.boxes_of_archive rfl h⟩⟩
  | .packaging, some .cancelled, _, .inr h => exact absurd h.1 hnone
  | .settling, none, ht, h =>
    obtain ⟨hwork, hcalls', ht'⟩ := h.1.finish ht rfl rfl hcalls
    exact ⟨_, ht', hcalls', hdone.boxes_of_archive hwork h.2⟩
  | .settling, some (.done _), _, h => exact absurd h.1 hnone
  | .discarding, none, ht, h =>
    obtain ⟨hwork, hcalls', ht'⟩ := h.1.finish ht rfl rfl hcalls
    exact ⟨_, ht', .inl ⟨hcalls', hdone.stages_of_discard hwork h.2⟩⟩
  | .discarding, some _, _, .inl h => exact absurd h.1 hnone
  | .discarding, some _, ht, .inr ⟨⟨awaited, hlone⟩, h⟩ =>
    obtain ⟨rfl, rfl, rfl⟩ := eq_of_lone (hcalls ▸ hlone)
    exact ⟨_, task_finish_of_signal ht (by simp),
      .inl ⟨finish_calls _ _ _ _ _, hdone.stages_of_discard rfl h⟩⟩
  | .removing _, _, ht, h =>
    obtain ⟨signal', ht'⟩ := exists_task_finish s c a (front ++ back) ht
    exact ⟨_, ht', hdone.leaving hcalls h⟩
  | .ended _, _, ht, h =>
    obtain ⟨signal', ht'⟩ := exists_task_finish s c a (front ++ back) ht
    exact ⟨_, ht', hdone.leaving hcalls h⟩

end Workers

/-! ## Whatever happens -/

section Steps

/-- What is there of a job that has a task can be told from the task. -/
theorem Neat.of_task (hsound : Sound s v) (ht : v.task = some t) (h : Tidy s v t) : Neat s v := by
  refine ⟨fun hnone => ?_, fun t' ht' => ?_, fun hnone => ?_⟩
  · rw [(hsound.unknown hnone).1] at ht
    cases ht
  · rw [ht] at ht'
    cases ht'
    exact h
  · rw [ht] at hnone
    cases hnone

theorem Neat.idles (h : Neat s v) (hidles : Idles s v v') (hrecord : v'.record = v.record)
    (htask : v'.task = v.task) : Neat s v' := by
  refine ⟨fun hnone => ?_, fun t ht => ?_, fun hnone hsome => ?_⟩
  · exact (h.unused (hrecord ▸ hnone)).of_spares hidles.job hidles.area hidles.package
  · exact (h.tidy t (htask ▸ ht)).idles hidles
  · exact (h.settled (htask ▸ hnone) (hrecord ▸ hsome)).idles hidles

/-- Nothing is there of a job that has nothing left to do and is not completed. -/
theorem Leaving.clear (h : Leaving s v) (hcalls : v.calls = []) (hother : ¬ v.IsCompleted) :
    v.Clear s := by
  have hnone : ∀ {work}, ¬ ∃ c ∈ v.calls, c.work = work := by
    rintro work ⟨c, hc, -⟩
    rw [hcalls] at hc
    exact absurd hc List.not_mem_nil
  refine ⟨h.area.resolve_right fun hmade => hnone hmade.2, ?_⟩
  exact (h.package.resolve_left hother).resolve_right fun hloose => hnone hloose.2

/-- What is there of a job whose task is over is to be removed. -/
theorem Neat.leaving (h : Neat s v) (hrecord : v.record ≠ none)
    (hover : ∀ t, v.task = some t → t.isEnded = true) : Leaving s v := by
  cases ht : v.task with
  | none => exact h.settled ht hrecord
  | some t =>
    have htidy := h.tidy t ht
    have hended := hover t ht
    unfold Task.isEnded at hended
    split at hended
    · rename_i cancelled hstage
      simpa only [Tidy, hstage] using htidy
    · cases hended

/-- What is there of a job without a task is to be removed. -/
theorem Neat.of_over (hrecord : v.record ≠ none) (ht : v.task = none) (h : Leaving s v) :
    Neat s v := by
  refine ⟨fun hnone => absurd hnone hrecord, fun t ht' => ?_, fun _ _ => h⟩
  rw [ht] at ht'
  cases ht'

theorem Neat.conclude {cause : Option GivingUp} (hsound : Sound s (v.conclude t cause))
    (h : Leaving s v) : Neat s (v.conclude t cause) := by
  have hleaving := h.idles (.conclude s v t cause)
  obtain ⟨w, cancelled, hconclude, -⟩ := conclude_cases v t cause
  rw [hconclude] at hsound hleaving ⊢
  exact .of_task hsound rfl hleaving

/-- Nothing is left when nothing is there. -/
theorem Leaving.of_clear (hcalls : v.calls = []) (h : v.Clear s) : Leaving s v := by
  refine ⟨fun c hc => ?_, .inl h.1, .inr (.inl h.2)⟩
  rw [hcalls] at hc
  exact absurd hc List.not_mem_nil

/-- A staging directory is left to its removal. -/
theorem Leaving.cleanUp (t : Task) (cause : Option GivingUp) (hcalls : v.calls = [])
    (harea : AreaMade s v.job v.tree) (hpackage : v.IsCompleted ∨ PackageFree s v.job v.tree) :
    Leaving s (v.cleanUp t cause) := by
  have hcalls' : (v.cleanUp t cause).calls = [{ job := v.job, work := .remove }] := by
    simp [Standing.cleanUp, Standing.hand, Standing.place, hcalls]
  refine ⟨fun c hc => ?_, .inr ⟨harea, ?_⟩, hpackage.imp id .inl⟩
  · rw [hcalls', List.mem_singleton] at hc
    rw [hc]
    exact .inl ⟨rfl, .inr rfl⟩
  · rw [hcalls']
    exact ⟨_, List.mem_singleton_self _, rfl⟩

/-- A staging directory and a package are left to their removals. -/
theorem Leaving.cleanUp_of_discard (t : Task) (cause : Option GivingUp) {awaited : Bool}
    (hcalls : v.calls = [{ job := v.job, work := .discard, begun := true, awaited }])
    (h : v.Boxes s) : Leaving s (v.cleanUp t cause) := by
  have hcalls' : (v.cleanUp t cause).calls =
      [{ job := v.job, work := .discard, begun := true, awaited },
        { job := v.job, work := .remove }] := by
    simp [Standing.cleanUp, Standing.hand, Standing.place, hcalls]
  refine ⟨fun c hc => ?_, .inr ⟨h.1, ?_⟩, .inr (.inr ⟨h.2, ?_⟩)⟩
  · rw [hcalls', List.mem_cons, List.mem_singleton] at hc
    rcases hc with rfl | rfl
    · exact .inr ⟨rfl, rfl⟩
    · exact .inl ⟨rfl, .inr rfl⟩
  · rw [hcalls']
    exact ⟨_, List.mem_cons_of_mem _ (List.mem_singleton_self _), rfl⟩
  · rw [hcalls']
    exact ⟨_, List.mem_cons_self, rfl⟩

/-- Nothing is there of a job that starts. -/
theorem Tidy.clear_of_start (h : Tidy s v t) (hstage : t.stage = .scheduled ∨ t.stage = .waiting) :
    v.calls = [] ∧ v.Clear s := by
  obtain ⟨owner, request, stage, signal, slot⟩ := t
  rcases hstage with rfl | rfl <;> exact h

/-- A task that goes on with the next file has its staging directory. -/
theorem Tidy.stages_of_pending (h : Tidy s v t) (hsignal : t.signal = some (.done (.ok ())))
    {files rest : List (String × String)} (hpending : t.stage.pending? files = some rest) :
    v.calls = [] ∧ v.Stages s := by
  obtain ⟨owner, request, stage, signal, slot⟩ := t
  obtain rfl : signal = some (.done (.ok ())) := hsignal
  cases stage with
  | creating => exact h
  | writing rest => exact h
  | _ => cases hpending

/-- What is there of a job that removes its staging directory. -/
theorem Tidy.leaving_cleanUp (h : Tidy s v t) {signal : Signal} (hsignal : t.signal = some signal)
    {cause : GivingUp} (hcause : t.stage.cleanUp? signal = some cause) :
    Leaving s (v.cleanUp t (some cause)) := by
  have hdiscards : ((v.calls = [] ∧ v.Stages s) ∨
      (∃ awaited, v.calls = [{ job := v.job, work := .discard, begun := true, awaited }]) ∧
        v.Boxes s) → Leaving s (v.cleanUp t (some cause)) := by
    rintro (⟨hcalls, hstages⟩ | ⟨⟨awaited, hcalls⟩, hboxes⟩)
    · exact .cleanUp t _ hcalls hstages.1 (.inr hstages.2)
    · exact .cleanUp_of_discard t _ hcalls hboxes
  obtain ⟨owner, request, stage, signal', slot⟩ := t
  obtain rfl : signal' = some signal := hsignal
  match stage, signal, hcause, h with
  | .writing _, .cancelled, _, h => exact hdiscards (.inl h)
  | .writing _, .done (.error _), _, h => exact hdiscards (.inl h)
  | .packaging, .done (.error _), _, h => exact hdiscards (.inl h)
  | .discarding, .cancelled, _, h => exact hdiscards h
  | .discarding, .done (.ok ()), _, h => exact hdiscards h
  | .discarding, .done (.error _), _, h => exact hdiscards h

/-- A task that ends leaves what is to be removed. -/
theorem Tidy.leaving_of_conclusion? (h : Tidy s v t) {signal : Signal}
    (hsignal : t.signal = some signal) {cause : Option GivingUp}
    (hcause : t.stage.conclusion? signal = some cause) : Leaving s v := by
  obtain ⟨owner, request, stage, signal', slot⟩ := t
  obtain rfl : signal' = some signal := hsignal
  match stage, signal, hcause, h with
  | .waiting, .cancelled, _, h => exact .of_clear h.1 h.2
  | .creating, .cancelled, _, h => exact .of_clear h.1 h.2
  | .creating, .done (.error _), _, h => exact .of_clear h.1 h.2
  | .removing _, .cancelled, _, h => exact h
  | .removing _, .done (.ok ()), _, h => exact h
  | .removing _, .done (.error _), _, h => exact h

/-- A task that was cancelled while its archive is written waits for the writer. -/
theorem Tidy.settle (h : Tidy s v t) (hstage : t.stage = .packaging)
    (hsignal : t.signal = some .cancelled) :
    Tidy s (v.place t .settling
      (if v.calls.any (·.work == .archive) then none else some (.done (.ok ()))))
      { t with
        stage := .settling
        signal := if v.calls.any (·.work == .archive) then none else some (.done (.ok ())) } := by
  obtain ⟨owner, request, stage, signal, slot⟩ := t
  obtain rfl : stage = .packaging := hstage
  obtain rfl : signal = some .cancelled := hsignal
  rcases h with ⟨⟨begun, hcalls⟩, hstages⟩ | ⟨hcalls, hboxes⟩
  · have hany : v.calls.any (·.work == .archive) = true := by rw [hcalls]; rfl
    rw [hany, if_pos rfl]
    exact ⟨⟨begun, hcalls⟩, hstages⟩
  · have hany : v.calls.any (·.work == .archive) = false := by rw [hcalls]; rfl
    rw [hany, if_neg Bool.false_ne_true]
    exact ⟨hcalls, hboxes⟩

/-- No call of a job can be taken back. -/
theorem Tidy.kept (h : Tidy s v t) {c : WorkerCall} (hc : c ∈ v.calls) :
    c.begun = true ∨ c.awaited = true := by
  have hnone : v.calls ≠ [] := List.ne_nil_of_mem hc
  have hwaited : ∀ {work}, v.Waited work → c.begun = true ∨ c.awaited = true := by
    rintro work ⟨begun, hcalls⟩
    rw [hcalls, List.mem_singleton] at hc
    rw [hc]
    exact .inr rfl
  obtain ⟨owner, request, stage, signal, slot⟩ := t
  match stage, signal, h with
  | .scheduled, _, h => exact absurd h.1 hnone
  | .waiting, _, h => exact absurd h.1 hnone
  | .creating, none, h => exact hwaited h.1
  | .creating, some (.done (.ok ())), h => exact absurd h.1 hnone
  | .creating, some (.done (.error _)), h => exact absurd h.1 hnone
  | .creating, some .cancelled, h => exact absurd h.1 hnone
  | .writing _, none, ⟨⟨_, _, h⟩, _⟩ => exact hwaited h
  | .writing _, some _, h => exact absurd h.1 hnone
  | .packaging, none, h => exact hwaited h.1
  | .packaging, some (.done (.ok ())), h => exact absurd h.1 hnone
  | .packaging, some (.done (.error _)), h => exact absurd h.1 hnone
  | .packaging, some .cancelled, .inl h => exact hwaited h.1
  | .packaging, some .cancelled, .inr h => exact absurd h.1 hnone
  | .settling, none, h => exact hwaited h.1
  | .settling, some (.done _), h => exact absurd h.1 hnone
  | .discarding, none, h => exact hwaited h.1
  | .discarding, some _, .inl h => exact absurd h.1 hnone
  | .discarding, some _, .inr ⟨⟨awaited, hcalls⟩, _⟩ =>
    rw [hcalls, List.mem_singleton] at hc
    rw [hc]
    exact .inl rfl
  | .removing _, _, h => exact h.kept hc
  | .ended _, _, h => exact h.kept hc

theorem Neat.kept (h : Neat s v) (hsound : Sound s v) {c : WorkerCall} (hc : c ∈ v.calls) :
    c.begun = true ∨ c.awaited = true := by
  cases ht : v.task with
  | some t => exact (h.tidy t ht).kept hc
  | none => exact (h.settled ht (hsound.ne_none_of_calls (List.ne_nil_of_mem hc))).kept hc

/-- **Whatever happens, everything that is there is going to be removed.** -/
theorem neat_happens (hpack : s.pack = Package.ofDirectory)
    (hapart : Apart s fun j => ∃ r, taken j r) (hours : ∃ r, taken v.job r) (hsound : Sound s v)
    (h : Neat s v) (hstep : Happens s taken v v') : Neat s v' := by
  have hsound' := sound_happens hsound hstep
  cases hstep with
  | submitted htaken hrecord =>
    exact .of_task hsound' rfl ⟨(hsound.unknown hrecord).2.1, h.unused hrecord⟩
  | @skipped t ht hstage hsignal =>
    obtain ⟨hcalls, hclear⟩ := (h.tidy t ht).clear_of_start (.inl hstage)
    exact .of_task hsound' rfl (Leaving.of_clear (v := v.place t _ _) hcalls hclear)
  | @queued t ht hstage hsignal =>
    exact .of_task hsound' rfl ((h.tidy t ht).clear_of_start (.inl hstage))
  | @called t ht hstage hsignal =>
    exact .of_task hsound' rfl ((h.tidy t ht).clear_of_start (.inr hstage))
  | @started t area ht hstage hsignal harea =>
    obtain ⟨hcalls, hclear⟩ := (h.tidy t ht).clear_of_start hstage
    exact .of_task hsound' rfl ⟨waited_hand t _ _ hcalls, hclear⟩
  | @refused t e ht hstage hsignal harea =>
    obtain ⟨hcalls, hclear⟩ := (h.tidy t ht).clear_of_start hstage
    have hleaving : Leaving s (v.become .processing processingMessage) :=
      .of_clear hcalls hclear
    exact .conclude hsound' hleaving
  | @continued t path text rest ht hsignal hpending =>
    obtain ⟨hcalls, hstages⟩ := (h.tidy t ht).stages_of_pending hsignal hpending
    exact .of_task hsound' rfl ⟨⟨path, text, waited_hand t _ _ hcalls⟩, hstages⟩
  | @gaveUp t m ht hsignal hpending hfailure =>
    obtain ⟨hcalls, hstages⟩ := (h.tidy t ht).stages_of_pending hsignal hpending
    exact .of_task hsound' rfl (Leaving.cleanUp t _ hcalls hstages.1 (.inr hstages.2))
  | @staged t ht hsignal hpending hfailure =>
    obtain ⟨hcalls, hstages⟩ := (h.tidy t ht).stages_of_pending hsignal hpending
    exact .of_task hsound' rfl ⟨waited_hand t _ _ hcalls, hstages⟩
  | @completed t ht hstage hsignal =>
    have htidy := h.tidy t ht
    simp only [Tidy, hstage, hsignal] at htidy
    obtain ⟨r, hr⟩ := hsound.exists_record ht
    have hcompleted := record_become hr .completed (completionMessage
      ((v.area.map (·.records.length)).getD 0) t.request.validTables.length)
      (some (packageName v.job))
    exact .of_task hsound' rfl
      (Leaving.cleanUp t none htidy.1 htidy.2.1 (.inl ⟨_, hcompleted, rfl⟩))
  | @settled t ht hstage hsignal =>
    exact .of_task hsound' rfl ((h.tidy t ht).settle hstage hsignal)
  | @discarded t result ht hstage hsignal =>
    have htidy := h.tidy t ht
    simp only [Tidy, hstage, hsignal] at htidy
    exact .of_task hsound' rfl ⟨waited_hand t _ _ htidy.1, htidy.2⟩
  | @cleanedUp t signal cause ht hsignal hcause =>
    exact .of_task hsound' rfl ((h.tidy t ht).leaving_cleanUp hsignal hcause)
  | @concluded t signal cause ht hsignal hcause =>
    exact .conclude hsound' ((h.tidy t ht).leaving_of_conclusion? hsignal hcause)
  | @retired t cancelled ht hstage =>
    have hleaving : Leaving s v := by
      have htidy := h.tidy t ht
      simpa only [Tidy, hstage] using htidy
    obtain ⟨r, hr⟩ := hsound.exists_record ht
    cases cancelled with
    | false => exact .of_over (by simp [hr]) rfl (hleaving.idles (.of_eq rfl id rfl rfl))
    | true =>
      obtain ⟨r', hr', -, -⟩ :=
        record_fail (v := { v with task := none }) hr (hsound.records r hr) cancelledMessage
      rw [if_pos rfl]
      refine .of_over (by simp [hr']) (fail_task _) (hleaving.idles ?_)
      exact .of_eq (fail_job _) (·.fail (v := { v with task := none }) _) (fail_calls _)
        (fail_tree _)
  | @begun front back c hcalls =>
    have hadvances : List.Forall₂ Advances v.calls
        (front ++ { c with begun := true } :: back) := by
      rw [hcalls]
      exact List.rel_append (Advances.refl front)
        (.cons ⟨rfl, rfl, rfl, fun _ => rfl⟩ (Advances.refl back))
    exact h.idles ⟨rfl, id, hadvances, .refl _ _ _, .refl _ _ _⟩ rfl rfl
  | @finished front back c a hcalls hjob hbegun harea =>
    have hdone : Done s (fun j => ∃ r, taken j r) v c a :=
      ⟨hpack, hapart, hours, hjob, hsound.area a harea⟩
    cases ht : v.task with
    | some t =>
      obtain ⟨t', ht', htidy⟩ := (h.tidy t ht).finish hdone ht hcalls
      exact .of_task hsound' ht' htidy
    | none =>
      have hrecord := hsound.ne_none_of_calls (by simp [hcalls])
      refine .of_over ?_ ?_ (hdone.leaving hcalls (h.settled ht hrecord))
      · rwa [finish_record]
      · rw [task_finish, ht]
        rfl
  | @dropped front back c hcalls hbegun hawaited =>
    have hkept := h.kept hsound (c := c) (by simp [hcalls])
    rw [hbegun, hawaited] at hkept
    simp at hkept
  | @elsewhere c a hother hjob harea =>
    exact h.idles ⟨rfl, id, Advances.refl _,
      hapart.sparesArea hpack hours hother hjob harea,
      hapart.sparesPackage hpack hours hother hjob harea⟩ rfl rfl

/-! ## Cancellation -/

/-- Nobody waits any more for calls that are not shielded; those that are begun go on. -/
theorem Leaving.cancel (h : Leaving s v) (hbegun : ∀ c ∈ v.calls, c.begun = true)
    (task : Option Task) :
    Leaving s { v with calls := v.calls.map fun c => { c with awaited := false }, task } := by
  have hwork : ∀ {work}, (∃ c ∈ v.calls, c.work = work) →
      ∃ c ∈ v.calls.map fun c => { c with awaited := false }, c.work = work := by
    rintro work ⟨c, hc, rfl⟩
    exact ⟨_, List.mem_map_of_mem hc, rfl⟩
  refine ⟨fun c hc => ?_, h.area.imp_right fun hm => ⟨hm.1, hwork hm.2⟩,
    h.package.imp_right (Or.imp_right fun hl => ⟨hl.1, hwork hl.2⟩)⟩
  obtain ⟨d, hd, rfl⟩ := List.mem_map.mp hc
  exact (h.works d hd).imp (fun hr => ⟨hr.1, .inl (hbegun d hd)⟩) id

/-- **What is there of a job can be told after a cancellation that comes at no fragile moment.** -/
theorem Tidy.cancel (h : Tidy s v t) (ht : v.task = some t) (hcalm : v.fragile = false)
    (hended : ¬ t.isEnded = true) :
    Tidy s
      { v with
        calls := v.calls.map fun c =>
          if !Pipeline.Stage.shields t.stage then { c with awaited := false } else c
        task := some { t with signal := some .cancelled } }
      { t with signal := some .cancelled } := by
  unfold fragile at hcalm
  rw [ht] at hcalm
  obtain ⟨owner, request, stage, signal, slot⟩ := t
  match stage, signal, h with
  | .scheduled, _, h => exact ⟨by simp [h.1], h.2⟩
  | .waiting, _, h => exact ⟨by simp [h.1], h.2⟩
  | .creating, none, _ => cases hcalm
  | .creating, some (.done (.ok ())), _ => cases hcalm
  | .creating, some (.done (.error _)), h => exact ⟨by simp [h.1], h.2⟩
  | .creating, some .cancelled, h => exact ⟨by simp [h.1], h.2⟩
  | .writing _, none, ⟨⟨_, _, _, hcalls⟩, _⟩ => simp [hcalls] at hcalm
  | .writing _, some _, h => exact ⟨by simp [h.1], h.2⟩
  -- the writer of the archive goes on being waited for
  | .packaging, none, ⟨⟨begun, hcalls⟩, h⟩ =>
    exact .inl ⟨⟨begun, by simp [hcalls, Pipeline.Stage.shields]⟩, h⟩
  | .packaging, some (.done (.ok ())), h => exact .inr ⟨by simp [h.1], h.2⟩
  | .packaging, some (.done (.error _)), h => exact .inr ⟨by simp [h.1], h.2.boxes⟩
  | .packaging, some .cancelled, .inl ⟨⟨begun, hcalls⟩, h⟩ =>
    exact .inl ⟨⟨begun, by simp [hcalls, Pipeline.Stage.shields]⟩, h⟩
  | .packaging, some .cancelled, .inr h => exact .inr ⟨by simp [h.1], h.2⟩
  | .settling, none, _ => cases hcalm
  | .settling, some (.done _), _ => cases hcalm
  | .discarding, none, ⟨⟨begun, hcalls⟩, h⟩ =>
    obtain rfl : begun = true := by simpa [hcalls] using hcalm
    exact .inr ⟨⟨false, by simp [hcalls, Pipeline.Stage.shields]⟩, h⟩
  | .discarding, some _, .inl h => exact .inl ⟨by simp [h.1], h.2⟩
  | .discarding, some _, .inr ⟨⟨awaited, hcalls⟩, h⟩ =>
    exact .inr ⟨⟨false, by simp [hcalls, Pipeline.Stage.shields]⟩, h⟩
  | .removing _, _, h => exact Leaving.cancel h (by simpa using hcalm) _
  | .ended _, _, _ => exact absurd rfl hended

/-- **A cancellation that comes at no fragile moment leaves nothing behind.** -/
theorem neat_cancel (hsound : Sound s v) (h : Neat s v) (hcalm : v.fragile = false) :
    Neat s v.cancel := by
  have hsound' := sound_cancel hsound
  unfold Standing.cancel at hsound' ⊢
  cases ht : v.task with
  | none => exact h
  | some t =>
    by_cases hended : t.isEnded = true
    · simp only [if_pos hended]
      exact h
    · simp only [ht, if_neg hended] at hsound' ⊢
      exact .of_task hsound' rfl ((h.tidy t ht).cancel ht hcalm hended)

end Steps

namespace Pipeline

variable {setup : PipelineSetup} {tree : FileTree FileBody} {events : List Event} {job : String}
  {r : Request}

/-- **Everything that is there of a job is going to be removed, in every state that a history
reaches in which the job is cancelled at no fragile moment.** -/
theorem neat_run (hfooting : Footing setup tree) (hpack : setup.pack = Package.ofDirectory)
    (hfresh : FreshNames setup tree ((accepted events).map Prod.fst))
    (hpackage : PackageFree setup job tree) (hmem : (job, r) ∈ accepted events)
    (hcalm : ∀ front e back, events = front ++ e :: back → e.cancels job = true →
      (((start setup tree).run front).standing job).fragile = false) :
    Neat setup (((start setup tree).run events).standing job) := by
  let taken : String → Request → Prop := fun j r => (j, r) ∈ accepted events
  have hid : job ∈ (accepted events).map Prod.fst := List.mem_map_of_mem hmem
  have hapart : Apart setup fun j => ∃ r, taken j r :=
    hfresh.apart hfooting fun j ⟨r, hr⟩ => List.mem_map_of_mem hr
  have hstart : Neat setup (unknown job tree) := by
    refine ⟨fun _ => ⟨hfresh.staging job hid, hpackage⟩, ?_, ?_⟩
    · intro t ht
      cases ht
    · intro _ hrecord
      exact absurd rfl hrecord
  refine standing_run_induction setup tree (P := Neat setup) (fun x (hx : taken x.1 x.2) => hx)
    hstart ?_ fun front e back hevents hcancels hsound hneat =>
      neat_cancel hsound hneat (hcalm front e back hevents hcancels)
  rintro v v' rfl hsound hneat hstep
  exact neat_happens hpack hapart ⟨r, hmem⟩ hsound hneat hstep

/-- **A job that has failed leaves nothing behind.** In every state that a history reaches: when a
job has failed, its task is over and none of its calls is under way or still to be made, there is
neither its staging directory nor its package, unless the job was cancelled at a fragile moment. -/
theorem nothing_left_of_failed (hfooting : Footing setup tree)
    (hpack : setup.pack = Package.ofDirectory)
    (hfresh : FreshNames setup tree ((accepted events).map Prod.fst))
    (job : String) (hpackage : PackageFree setup job tree)
    (hcalm : ∀ front e back, events = front ++ e :: back → e.cancels job = true →
      (((start setup tree).run front).standing job).fragile = false) :
    let p := (start setup tree).run events
    (p.registry.status job).status = .error → (∀ t, p.task? job = some t → t.isEnded = true) →
    (∀ c ∈ p.calls, c.job ≠ job) →
    AreaFree setup job p.tree ∧ PackageFree setup job p.tree := by
  intro p hfailed hover hcalls
  obtain ⟨rec, hrec, hstatus⟩ := exists_record_of_status hfailed (by decide)
  obtain ⟨r, hr⟩ := exists_accepted_of_get? setup tree hrec
  have hrecord : (p.standing job).record = some rec := hrec
  have hneat := neat_run hfooting hpack hfresh hpackage hr hcalm
  have hother : ¬ (p.standing job).IsCompleted := by
    rintro ⟨rec', hrec', hcompleted⟩
    rw [hrecord] at hrec'
    cases hrec'
    rw [hstatus] at hcompleted
    cases hcompleted
  have hnone : (p.standing job).calls = [] :=
    List.filter_eq_nil_iff.mpr fun c hc => by simpa using hcalls c hc
  refine (hneat.leaving ?_ fun t ht => ?_).clear hnone hother
  · rw [hrecord]
    exact Option.some_ne_none rec
  · obtain ⟨t', ht', rfl⟩ := Option.map_eq_some_iff.mp ht
    exact hover t' ht'

/-- A job that was cancelled while its archive was written leaves nothing behind. -/
theorem nothing_left_of_failed_packaging :
    let setup : PipelineSetup :=
      { stagingRoot := ["", "tmp"]
        packageDirectory := ["", "out"]
        generate := fun _ => { files := [("Order.cs", "class Order")] } }
    let id := "6fa459ea-ee8a-3ca4-894e-db77e160355e"
    let events : List Event :=
      [.submit id { tables := [⟨"order", [{ name := "id" }], none⟩] }, .resume id,
        .begin 0, .finish 0, .resume id, .begin 0, .finish 0, .resume id, .begin 0,
        .cancel id, .resume id, .finish 0, .resume id, .begin 0, .finish 0, .resume id,
        .begin 0, .finish 0, .resume id, .retire id]
    let p := (start setup {}).run events
    AreaFree setup id p.tree ∧ PackageFree setup id p.tree := by
  intro setup id events p
  have hform : ∀ i ∈ [id], HasUuidForm i :=
    fun i hi => List.mem_singleton.mp hi ▸ .of_all (by decide) (by decide)
  have hfooting : Footing setup {} := ⟨by decide, by decide, List.nodup_nil⟩
  have hfresh : FreshNames setup {} ((accepted events).map Prod.fst) :=
    .of_empty (by decide) hform (List.nodup_singleton id) (by decide)
  have hnone : (p.task? id).isNone = true := by decide +kernel
  have hmoments : ∀ n < events.length, (events[n]?.any (·.cancels id)) = true →
      (((start setup {}).run (events.take n)).standing id).fragile = false := by
    decide +kernel
  have hcalm : ∀ front e back, events = front ++ e :: back → e.cancels id = true →
      (((start setup {}).run front).standing id).fragile = false := by
    intro front e back hevents hcancels
    have hmoment := hmoments front.length (by rw [hevents]; simp)
    rw [hevents] at hmoment
    simpa [hcancels] using hmoment
  refine nothing_left_of_failed hfooting rfl hfresh id rfl hcalm (by decide +kernel) ?_
    (by decide +kernel)
  intro t ht
  rw [Option.isNone_iff_eq_none.mp hnone] at ht
  cases ht

end Pipeline

end EntityScaffold
