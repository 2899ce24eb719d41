import EntityScaffold.Jobs.Download
import EntityScaffold.Proofs.Jobs.Events
import EntityScaffold.Proofs.Jobs.Footprints

/-!
# A completed job has its package

As long as a task is not cancelled and nothing goes wrong, it has at most one call under way, the
one that it waits for, and its staging area holds the files that it has staged. So the package that
is made last holds all of them, and nothing touches it afterwards.

* `Underway`: a call of the task is under way, or it is done and nothing else is.
* `Course`: what holds of a job on the way to its package, stage by stage.

Results:
* `course_happens`, `course_cancel`: it holds all along.
-/

namespace EntityScaffold

open Standing

variable {s : PipelineSetup} {taken : String → Request → Prop} {r : Request} {v v' : Standing}
  {t : Task} {job : String} {tree tree' : FileTree FileBody} {files : List (String × String)}

/-! ## Files of a job -/

/-- The package of a job is there and holds the files. -/
structure Packaged (s : PipelineSetup) (job : String) (tree : FileTree FileBody)
    (files : List (String × String)) : Prop where
  safe : PathsSafe files
  read : tree.read (s.destination job) = .ok (.archive (Package.contents files))

/-- The staging directory of a job holds the files. -/
structure Filled (s : PipelineSetup) (job : String) (tree : FileTree FileBody)
    (files : List (String × String)) : Prop where
  safe : PathsSafe files
  staged : Staged tree (areaPlace s job) files

theorem Filled.of_spares (h : Filled s job tree files) (hspares : SparesArea s job tree tree') :
    Filled s job tree' files :=
  ⟨h.safe, h.staged.congr fun q hq => FileTree.content?_congr (hspares.nodes q hq)⟩

theorem Packaged.of_spares (h : Packaged s job tree files)
    (hspares : SparesPackage s job tree tree') : Packaged s job tree' files := by
  have hfind := FileTree.read_eq_ok_iff.mp h.read
  refine ⟨h.safe, FileTree.read_eq_ok_iff.mpr ?_⟩
  refine FileTree.find_mono (fun q hq hdir => ?_) hspares.node hfind
  rw [PipelineSetup.destination, List.dropLast_concat] at hq
  exact hspares.ways q hq hdir

/-- The staging area has a record of each of the files. -/
def Standing.Recorded (v : Standing) (files : List (String × String)) : Prop :=
  ∃ a, v.area = some a ∧ a.records = files.map stagedRecord

/-- The files are staged and recorded. -/
structure Stocked (s : PipelineSetup) (v : Standing) (files : List (String × String)) : Prop where
  filled : Filled s v.job v.tree files
  recorded : v.Recorded files

section Effects

variable {c : WorkerCall} {a : StagingArea} {calls : List WorkerCall}

/-- Only staging a file changes the area. -/
theorem area_effect (hwork : ∀ path text, c.work ≠ .write path text) :
    (effect s tree c a).2.1 = a := by
  unfold effect Pipeline.perform
  cases hc : c.work with
  | write path text => exact absurd hc (hwork path text)
  | _ => rfl

theorem Recorded.finish (h : v.Recorded files) (harea : v.area = some a)
    (hwork : ∀ path text, c.work ≠ .write path text) :
    (v.finish s c a calls).Recorded files := by
  obtain ⟨a', ha', hrecords⟩ := h
  rw [harea, Option.some.injEq] at ha'
  subst ha'
  exact ⟨a, by rw [finish_area, area_effect hwork], hrecords⟩

/-- Making the staging directory adds no file. -/
theorem Stocked.create (h : Stocked s v files) (harea : v.area = some a)
    (hwork : c.work = .create) : Stocked s (v.finish s c a calls) files := by
  have htree : (effect s v.tree c a).1 = (a.create v.tree).1 := by
    unfold effect Pipeline.perform
    rw [hwork]
  refine ⟨?_, Recorded.finish h.recorded harea (by simp [hwork])⟩
  rw [finish_job, finish_tree, htree]
  exact ⟨h.filled.safe, h.filled.staged.congr fun q _ =>
    (FileTree.grown_makeDirectories v.tree a.path).content?_eq q⟩

/-- Staging a file adds it. -/
theorem Stocked.write (h : Stocked s v files) (harea : v.area = some a) (ha : a.IsPlace)
    (hplace : a.path = areaPlace s v.job) {path text : String} (hwork : c.work = .write path text)
    (hresult : (effect s v.tree c a).2.2 = .ok ()) :
    Stocked s (v.finish s c a calls) (files ++ [(path, text)]) := by
  obtain ⟨a', ha', hrecords⟩ := h.recorded
  rw [harea, Option.some.injEq] at ha'
  subst ha'
  unfold effect Pipeline.perform at hresult
  simp only [hwork] at hresult
  split at hresult
  · rename_i tree₁ area record hwrite
    have heffect : effect s v.tree c a = (tree₁, area, .ok ()) := by
      unfold effect Pipeline.perform
      simp only [hwork, hwrite]
    obtain ⟨names, hnames, hwritten, -, hrecord⟩ := StagingArea.written_of_write hwrite ha.ne_nil
    refine ⟨⟨h.filled.safe.concat hnames hwritten, ?_⟩, area, by rw [finish_area, heffect], ?_⟩
    · have hstaged := h.filled.staged
      rw [finish_job, finish_tree, heffect]
      rw [← hplace] at hstaged ⊢
      exact hstaged.write ha hnames hwritten
    · rw [hrecord, hrecords, List.map_append, List.map_singleton]
  · cases hresult

/-- Packaging a staging directory that holds the files gives their package. -/
theorem Stocked.archive (h : Stocked s v files) (hpack : s.pack = Package.ofDirectory)
    (hkeyed : v.tree.Keyed) (hjob : c.job = v.job) (ha : a.IsPlace)
    (hplace : a.path = areaPlace s v.job) (hwork : c.work = .archive)
    (hresult : (effect s v.tree c a).2.2 = .ok ()) :
    Packaged s v.job (effect s v.tree c a).1 files := by
  unfold effect Pipeline.perform at hresult ⊢
  simp only [hwork, hpack, hjob] at hresult ⊢
  have hne : s.destination v.job ≠ [] := by simp [PipelineSetup.destination]
  have hwritten := Package.exists_written_of_ofDirectory ha.collapsed hne
    (Prod.ext rfl hresult : Package.ofDirectory v.tree a.path (s.destination v.job) = (_, .ok ()))
  have hstaged := h.filled.staged
  rw [← hplace] at hstaged
  rw [Package.entriesBelow_of_staged hkeyed ha.ne_nil h.filled.safe hstaged] at hwritten
  exact ⟨h.filled.safe, FileTree.read_eq_ok_iff.mpr hwritten.find⟩

end Effects

/-! ## The course of a job -/

/-- The task waits for a call, before which one thing holds, or it is done and another holds. When
the task was cancelled or the call went wrong, nothing is said. -/
def Underway (v : Standing) (t : Task) (work : Work) (before after : Prop) : Prop :=
  match t.signal with
  | none => v.Waited work ∧ before
  | some (.done (.ok ())) => v.calls = [] ∧ after
  | _ => True

/-- Where the task stands on the way to the package of these files. -/
def OnCourse (s : PipelineSetup) (v : Standing) (files : List (String × String)) (t : Task) :
    Prop :=
  match t.stage with
  | .scheduled => v.calls = [] ∧ Filled s v.job v.tree []
  | .waiting => v.calls = [] ∧ Filled s v.job v.tree []
  | .creating => Underway v t .create (Stocked s v []) (Stocked s v [])
  | .writing rest => ∃ done f, files = done ++ f :: rest ∧
      Underway v t (.write f.1 f.2) (Stocked s v done) (Stocked s v (done ++ [f]))
  | .packaging => Underway v t .archive (Stocked s v files)
      (Packaged s v.job v.tree files ∧ v.Recorded files)
  | _ => True

/-- What is known of a job that is completed. -/
structure Finished (s : PipelineSetup) (r : Request) (v : Standing) (message : String) : Prop where
  calls : ∀ c ∈ v.calls, c.work = .remove
  packaged : Packaged s v.job v.tree (s.generate r).files
  recorded : v.Recorded (s.generate r).files
  message : message = completionMessage (s.generate r).files.length r.validTables.length

/-- What holds of a job for a request on the way to its package. -/
structure Course (s : PipelineSetup) (r : Request) (v : Standing) : Prop where
  keyed : v.tree.Keyed
  request : ∀ t, v.task = some t → t.request = r
  /-- Nothing is staged for a job that is not registered. -/
  unused : v.record = none → Filled s v.job v.tree []
  course : ∀ t, v.task = some t → OnCourse s v (s.generate r).files t
  completed : ∀ rec, v.record = some rec → rec.status = .completed → Finished s r v rec.message

/-- What becomes of a call that is under way when other things change. -/
theorem Underway.imp {work : Work} {before after before' after' : Prop}
    (h : Underway v t work before after) (hwaited : v.Waited work → v'.Waited work)
    (hnone : v.calls = [] → v'.calls = []) (hbefore : before → before')
    (hafter : after → after') : Underway v' t work before' after' := by
  unfold Underway at h ⊢
  split at h
  · exact ⟨hwaited h.1, hbefore h.2⟩
  · exact ⟨hnone h.1, hafter h.2⟩
  · trivial

/-- What other jobs do to files leaves what is staged and recorded. -/
theorem Stocked.of_spares (h : Stocked s v files) (hjob : v'.job = v.job)
    (harea : v'.area = v.area) (hspares : SparesArea s v.job v.tree v'.tree) :
    Stocked s v' files := by
  obtain ⟨hfilled, a, ha, hrecords⟩ := h
  exact ⟨hjob.symm ▸ hfilled.of_spares hspares, a, harea.trans ha, hrecords⟩

/-- A task stays on course when nothing happens but that its call is begun, or that other jobs
change files. -/
theorem OnCourse.imp (h : OnCourse s v files t) (hjob : v'.job = v.job) (harea : v'.area = v.area)
    (hwaited : ∀ work, v.Waited work → v'.Waited work) (hnone : v.calls = [] → v'.calls = [])
    (hspares : SparesArea s v.job v.tree v'.tree)
    (hpackage : SparesPackage s v.job v.tree v'.tree) : OnCourse s v' files t := by
  have hfilled : ∀ {files}, Filled s v.job v.tree files → Filled s v'.job v'.tree files :=
    fun h => hjob.symm ▸ h.of_spares hspares
  have hstocked : ∀ {files}, Stocked s v files → Stocked s v' files :=
    fun h => h.of_spares hjob harea hspares
  unfold OnCourse at h ⊢
  split at h
  · exact ⟨hnone h.1, hfilled h.2⟩
  · exact ⟨hnone h.1, hfilled h.2⟩
  · exact h.imp (hwaited _) hnone hstocked hstocked
  · obtain ⟨done, f, hfiles, hway⟩ := h
    exact ⟨done, f, hfiles, hway.imp (hwaited _) hnone hstocked hstocked⟩
  · refine h.imp (hwaited _) hnone hstocked fun hdone => ⟨?_, ?_⟩
    · exact hjob.symm ▸ hdone.1.of_spares hpackage
    · obtain ⟨a, ha, hrecords⟩ := hdone.2
      exact ⟨a, harea.trans ha, hrecords⟩
  · trivial

/-- A finished job stays so when nothing happens but that its staging directory is removed, or that
other jobs change files. -/
theorem Finished.imp {message : String} (h : Finished s r v message) (hjob : v'.job = v.job)
    (harea : v'.area = v.area)
    (hcalls : (∀ c ∈ v.calls, c.work = .remove) → ∀ c ∈ v'.calls, c.work = .remove)
    (hpackage : SparesPackage s v.job v.tree v'.tree) : Finished s r v' message := by
  obtain ⟨hremove, hpackaged, ⟨a, ha, hrecords⟩, hmessage⟩ := h
  exact ⟨hcalls hremove, hjob.symm ▸ hpackaged.of_spares hpackage, ⟨a, harea.trans ha, hrecords⟩,
    hmessage⟩

/-- When the call that a task waits for is done, the task can run, and nothing else is under way. -/
theorem Underway.finish {work : Work} {before after before' after' : Prop}
    (h : Underway v t work before after) (ht : v.task = some t)
    (hwork : Pipeline.Stage.awaits t.stage work = true)
    {front back : List WorkerCall} {c : WorkerCall} {a : StagingArea}
    (hcalls : v.calls = front ++ c :: back)
    (hdone : c.work = work → before → (effect s v.tree c a).2.2 = .ok () → after') :
    ∃ signal, (v.finish s c a (front ++ back)).task = some { t with signal } ∧
      Underway (v.finish s c a (front ++ back)) { t with signal } work before' after' := by
  unfold Underway at h
  split at h
  · rename_i hsignal
    obtain ⟨hcall, hnone, htask⟩ := h.1.finish (s := s) (a := a) ht hsignal hwork hcalls
    refine ⟨_, htask, ?_⟩
    generalize (effect s v.tree c a).2.2 = result at hdone
    unfold Underway
    match result with
    | .error e => trivial
    | .ok () => exact ⟨hnone, hdone hcall h.2 rfl⟩
  · rw [hcalls] at h
    exact absurd h.1 (by simp)
  · rename_i hnone hok
    refine ⟨t.signal, task_finish_of_signal ht hnone, ?_⟩
    unfold Underway
    split
    · rename_i hsignal
      exact absurd hsignal hnone
    · rename_i hsignal
      exact absurd hsignal hok
    · trivial

/-! ## What happens on the way -/

section Steps

/-- The task comes to another stage. -/
theorem Course.place (h : Course s r v) (ht : v.task = some t) {stage : Stage}
    {signal : Option Signal}
    (hcourse : OnCourse s (v.place t stage signal) (s.generate r).files { t with stage, signal }) :
    Course s r (v.place t stage signal) := by
  refine ⟨h.keyed, ?_, h.unused, ?_, fun rec hrec hstatus =>
    (h.completed rec hrec hstatus).imp rfl rfl id (.refl _ _ _)⟩
  · intro t' ht'
    cases ht'
    exact h.request t ht
  · intro t' ht'
    cases ht'
    exact hcourse

/-- The task of a job that is not completed gives a call to the workers. -/
theorem Course.hand (h : Course s r v) (ht : v.task = some t)
    (hstatus : ∀ rec, v.record = some rec → rec.status ≠ .completed) {work : Work} {stage : Stage}
    (hcourse : OnCourse s (v.hand t work stage) (s.generate r).files
      { t with stage, signal := none }) :
    Course s r (v.hand t work stage) := by
  refine ⟨h.keyed, ?_, h.unused, ?_, fun rec hrec hcompleted => ?_⟩
  · intro t' ht'
    cases ht'
    exact h.request t ht
  · intro t' ht'
    cases ht'
    exact hcourse
  · exact absurd hcompleted (hstatus rec hrec)

/-- The record may change as long as the job is not completed by that. -/
theorem Course.with_record (h : Course s r v) {record : Option Job}
    (hnone : record = none → v.record = none)
    (hcompleted : ∀ rec, record = some rec → rec.status = .completed → v.record = some rec) :
    Course s r { v with record } := by
  refine ⟨h.keyed, h.request, fun hrecord => h.unused (hnone hrecord), ?_, ?_⟩
  · exact fun t ht =>
      (h.course t ht).imp rfl rfl (fun _ => id) id (.refl _ _ _) (.refl _ _ _)
  · exact fun rec hrec hstatus =>
      (h.completed rec (hcompleted rec hrec hstatus) hstatus).imp rfl rfl id (.refl _ _ _)

theorem Course.become (h : Course s r v) {status : JobStatus} (message : String)
    (hstatus : status ≠ .completed) : Course s r (v.become status message) := by
  refine h.with_record (fun hnone => Option.map_eq_none_iff.mp hnone) fun rec hrec hcompleted => ?_
  obtain ⟨old, -, rfl⟩ := Option.map_eq_some_iff.mp hrec
  exact absurd hcompleted hstatus

theorem Course.fail (h : Course s r v) (m : String) : Course s r (v.fail m) := by
  unfold Standing.fail
  split_ifs
  · exact h
  · exact h.become m (by decide)

/-- A task that ends leaves the course. -/
theorem Course.conclude (h : Course s r v) (ht : v.task = some t) (cause : Option GivingUp) :
    Course s r (v.conclude t cause) := by
  obtain ⟨w, cancelled, hconclude, hw⟩ := conclude_cases v t cause
  rw [hconclude]
  have hfailed : Course s r w ∧ w.task = some t := by
    rcases hw with rfl | ⟨m, rfl⟩
    · exact ⟨h, ht⟩
    · exact ⟨h.fail m, by simpa using ht⟩
  exact hfailed.1.place hfailed.2 trivial

/-- A task that leaves the table leaves the course. -/
theorem Course.retire (h : Course s r v) (cancelled : Bool) :
    Course s r (if cancelled then { v with task := none }.fail cancelledMessage
      else { v with task := none }) := by
  have hgone : Course s r { v with task := none } := by
    refine ⟨h.keyed, ?_, h.unused, ?_, fun rec hrec hstatus =>
      (h.completed rec hrec hstatus).imp rfl rfl id (.refl _ _ _)⟩
    · intro t ht
      cases ht
    · intro t ht
      cases ht
  split_ifs
  · exact hgone.fail _
  · exact hgone

/-- A call may begin or be taken back, and other jobs may change files. -/
theorem Course.with_calls (h : Course s r v) {calls : List WorkerCall}
    (hwaited : ∀ work, v.Waited work → Waited { v with calls } work)
    (hnone : v.calls = [] → calls = [])
    (hremove : (∀ c ∈ v.calls, c.work = .remove) → ∀ c ∈ calls, c.work = .remove)
    (hkeyed : tree.Keyed) (hspares : SparesArea s v.job v.tree tree)
    (hpackage : SparesPackage s v.job v.tree tree) : Course s r { v with calls, tree } := by
  refine ⟨hkeyed, h.request, fun hrecord => (h.unused hrecord).of_spares hspares, ?_, ?_⟩
  · exact fun t ht => (h.course t ht).imp rfl rfl hwaited hnone hspares hpackage
  · exact fun rec hrec hstatus =>
      (h.completed rec hrec hstatus).imp rfl rfl hremove hpackage

/-- A job is completed when its package is made. -/
theorem Course.complete (h : Course s r v) (ht : v.task = some t) (hstage : t.stage = .packaging)
    (hsignal : t.signal = some (.done (.ok ()))) :
    Course s r
      ((v.become .completed
        (completionMessage ((v.area.map (·.records.length)).getD 0)
          t.request.validTables.length)
        (some (packageName v.job))).cleanUp t none) := by
  have hcourse := h.course t ht
  unfold OnCourse at hcourse
  simp only [hstage, Underway, hsignal] at hcourse
  obtain ⟨hcalls, hpackaged, a, ha, hrecords⟩ := hcourse
  refine ⟨h.keyed, ?_, fun hnone => h.unused (Option.map_eq_none_iff.mp hnone), ?_, ?_⟩
  · intro t' ht'
    cases ht'
    exact h.request t ht
  · intro t' ht'
    cases ht'
    trivial
  · intro rec hrec hstatus
    obtain ⟨old, -, rfl⟩ := Option.map_eq_some_iff.mp hrec
    refine ⟨fun c hc => ?_, hpackaged, ⟨a, ha, hrecords⟩, ?_⟩
    · have hc' : c ∈ v.calls ++ [{ job := v.job, work := .remove }] := hc
      rw [hcalls, List.nil_append, List.mem_singleton] at hc'
      rw [hc']
    · rw [ha, h.request t ht]
      simp [hrecords]

section Workers

variable {front back : List WorkerCall} {c : WorkerCall} {a : StagingArea} {jobs : String → Prop}

/-- A task stays on course when its call is done. -/
theorem OnCourse.finish (h : OnCourse s v files t) (ht : v.task = some t)
    (hpack : s.pack = Package.ofDirectory) (hkeyed : v.tree.Keyed) (harea : v.area = some a)
    (ha : a.IsPlace) (hplace : a.path = areaPlace s v.job) (hcalls : v.calls = front ++ c :: back)
    (hjob : c.job = v.job) :
    ∃ signal, (v.finish s c a (front ++ back)).task = some { t with signal } ∧
      OnCourse s (v.finish s c a (front ++ back)) files { t with signal } := by
  have hne : v.calls ≠ [] := by simp [hcalls]
  obtain ⟨owner, request, stage, told, slot⟩ := t
  cases stage with
  | scheduled => exact absurd h.1 hne
  | waiting => exact absurd h.1 hne
  | creating =>
    exact Underway.finish h ht rfl hcalls fun hwork hstocked _ => hstocked.create harea hwork
  | writing rest =>
    obtain ⟨done, f, hfiles, hway⟩ := h
    obtain ⟨signal, hsignal, hway'⟩ := hway.finish ht rfl hcalls
      fun hwork hstocked hresult => hstocked.write harea ha hplace hwork hresult
    exact ⟨signal, hsignal, done, f, hfiles, hway'⟩
  | packaging =>
    refine Underway.finish h ht rfl hcalls fun hwork hstocked hresult => ⟨?_, ?_⟩
    · rw [finish_job, finish_tree]
      exact hstocked.archive hpack hkeyed hjob ha hplace hwork hresult
    · exact Recorded.finish hstocked.recorded harea (by simp [hwork])
  | _ =>
    obtain ⟨signal, hsignal⟩ := exists_task_finish s c a (front ++ back) ht
    exact ⟨signal, hsignal, trivial⟩

/-- A job stays on course when a worker is done with one of its calls. -/
theorem Course.finish (h : Course s r v) (hpack : s.pack = Package.ofDirectory)
    (hapart : Apart s jobs) (hours : jobs v.job) (hsound : Sound s v)
    (hcalls : v.calls = front ++ c :: back) (hjob : c.job = v.job) (harea : v.area = some a) :
    Course s r (v.finish s c a (front ++ back)) := by
  have hof := hsound.area a harea
  have hplace : a.path = areaPlace s v.job := hapart.path_of_area hours hof
  have ha : a.IsPlace := hapart.isPlace hof
  have hrecord := hsound.ne_none_of_calls (by simp [hcalls])
  have htask : ∀ t', (v.finish s c a (front ++ back)).task = some t' →
      t'.request = r ∧ OnCourse s (v.finish s c a (front ++ back)) (s.generate r).files t' := by
    intro t' ht'
    cases ht : v.task with
    | none =>
      rw [task_finish, ht] at ht'
      cases ht'
    | some t =>
      obtain ⟨signal, hsignal, hcourse⟩ :=
        (h.course t ht).finish ht hpack h.keyed harea ha hplace hcalls hjob
      rw [hsignal] at ht'
      cases ht'
      exact ⟨h.request t ht, hcourse⟩
  refine ⟨?_, fun t' ht' => (htask t' ht').1, ?_, fun t' ht' => (htask t' ht').2, ?_⟩
  · rw [finish_tree]
    exact keyed_effect hpack h.keyed c a
  · rw [finish_record]
    exact fun hnone => absurd hnone hrecord
  · rw [finish_record]
    intro rec hrec hstatus
    have hfinished := h.completed rec hrec hstatus
    have hwork : c.work = .remove := hfinished.calls c (by simp [hcalls])
    refine hfinished.imp (by simp) ?_ (fun hremove d hd => hremove d ?_) ?_
    · rw [finish_area, area_effect (by simp [hwork]), harea]
    · rw [finish_calls] at hd
      rw [hcalls]
      simp only [List.mem_append, List.mem_cons] at hd ⊢
      exact hd.imp_right .inr
    · rw [finish_tree]
      have hspares := hapart.sparesPackage_of_stages (t := v.tree) (c := c) (hjob ▸ hours)
        (hjob ▸ hof) (by rw [hwork]; rfl)
      exact hjob ▸ hspares

end Workers

/-- A request is taken for a job of which nothing is known. -/
theorem Course.submit (h : Course s r v) (hsound : Sound s v) (hrecord : v.record = none) :
    Course s r
      { v with
        record := some { id := v.job, message := queuedMessage }
        task := some { job := v.job, request := r } } := by
  refine ⟨h.keyed, ?_, ?_, ?_, ?_⟩
  · intro t ht
    cases ht
    rfl
  · intro hnone
    cases hnone
  · intro t ht
    cases ht
    exact ⟨(hsound.unknown hrecord).2.1, h.unused hrecord⟩
  · intro rec hrec hstatus
    cases hrec
    cases hstatus

/-- A task that starts has nothing staged. -/
theorem OnCourse.filled_of_start (h : OnCourse s v files t)
    (hstage : t.stage = .scheduled ∨ t.stage = .waiting) :
    v.calls = [] ∧ Filled s v.job v.tree [] := by
  unfold OnCourse at h
  rcases hstage with hstage | hstage <;> rwa [hstage] at h

/-- A task that goes on with the next file has staged those before it. -/
theorem OnCourse.stocked_of_pending (h : OnCourse s v files t)
    (hsignal : t.signal = some (.done (.ok ()))) {rest : List (String × String)}
    (hpending : t.stage.pending? files = some rest) :
    v.calls = [] ∧ ∃ done, files = done ++ rest ∧ Stocked s v done := by
  unfold OnCourse at h
  unfold Stage.pending? at hpending
  split at hpending
  · rename_i hstage
    simp only [hstage, Underway, hsignal] at h
    cases hpending
    exact ⟨h.1, [], rfl, h.2⟩
  · rename_i hstage
    cases hpending
    simp only [hstage, Underway, hsignal] at h
    obtain ⟨done, f, hfiles, hcalls, hstocked⟩ := h
    exact ⟨hcalls, done ++ [f], by simp [hfiles], hstocked⟩
  · cases hpending

/-- A task starts to work. -/
theorem Course.start (h : Course s r v) (ht : v.task = some t)
    (hstage : t.stage = .scheduled ∨ t.stage = .waiting) {area : StagingArea}
    (harea : area.records = []) :
    Course s r
      ({ v.become .processing processingMessage with area := some area }.hand t .create
        .creating) := by
  obtain ⟨hcalls, hfilled⟩ := (h.course t ht).filled_of_start hstage
  refine ⟨h.keyed, ?_, fun hnone => h.unused (Option.map_eq_none_iff.mp hnone), ?_, ?_⟩
  · intro t' ht'
    cases ht'
    exact h.request t ht
  · intro t' ht'
    cases ht'
    exact ⟨waited_hand t _ _ hcalls, hfilled, area, rfl, harea⟩
  · intro rec hrec hstatus
    obtain ⟨old, -, rfl⟩ := Option.map_eq_some_iff.mp hrec
    cases hstatus

/-- **Whatever happens, a job keeps its course.** -/
theorem course_happens (hpack : s.pack = Package.ofDirectory)
    (hapart : Apart s fun j => ∃ r, taken j r) (htaken : taken v.job r)
    (hunique : ∀ r', taken v.job r' → r' = r) (hsound : Sound s v) (h : Course s r v)
    (hstep : Happens s taken v v') : Course s r v' := by
  have hstatus : ∀ t, v.task = some t → (∀ status, t.stage.fits status → status = .processing) →
      ∀ rec, v.record = some rec → rec.status ≠ .completed := by
    intro t ht hfits rec hrec
    rw [hfits _ (hsound.fits t rec ht hrec)]
    decide
  cases hstep with
  | submitted htaken' hrecord =>
    obtain rfl := hunique _ htaken'
    exact h.submit hsound hrecord
  | skipped ht hstage hsignal => exact h.place ht trivial
  | @queued t ht hstage hsignal =>
    exact h.place ht ((h.course t ht).filled_of_start (.inl hstage))
  | @called t ht hstage hsignal =>
    exact h.place ht ((h.course t ht).filled_of_start (.inr hstage))
  | started ht hstage hsignal harea =>
    exact h.start ht hstage (congrArg StagingArea.records (StagingArea.of_eq_ok harea))
  | refused ht hstage hsignal harea => exact (h.become _ (by decide)).conclude ht _
  | @continued t path text rest ht hsignal hpending =>
    obtain rfl := h.request t ht
    obtain ⟨hcalls, done, hfiles, hstocked⟩ := (h.course t ht).stocked_of_pending hsignal hpending
    exact h.hand ht (hstatus t ht fun _ => eq_processing_of_pending? hpending)
      ⟨done, (path, text), hfiles, waited_hand t _ _ hcalls,
        hstocked.of_spares rfl rfl (.refl _ _ _)⟩
  | @gaveUp t m ht hsignal hpending hfailure =>
    exact h.hand ht (hstatus t ht fun _ => eq_processing_of_pending? hpending) trivial
  | @staged t ht hsignal hpending hfailure =>
    obtain rfl := h.request t ht
    obtain ⟨hcalls, done, hfiles, hstocked⟩ := (h.course t ht).stocked_of_pending hsignal hpending
    rw [List.append_nil] at hfiles
    exact h.hand ht (hstatus t ht fun _ => eq_processing_of_pending? hpending)
      ⟨waited_hand t _ _ hcalls, hfiles ▸ hstocked.of_spares rfl rfl (.refl _ _ _)⟩
  | completed ht hstage hsignal => exact h.complete ht hstage hsignal
  | settled ht hstage hsignal => exact h.place ht trivial
  | @discarded t result ht hstage hsignal =>
    refine h.hand ht (hstatus t ht fun status hfits => ?_) trivial
    rw [hstage] at hfits
    simpa [Stage.fits] using hfits
  | @cleanedUp t signal cause ht hsignal hcause =>
    exact h.hand ht (hstatus t ht fun _ => eq_processing_of_cleanUp? hcause) trivial
  | concluded ht hsignal hcause => exact h.conclude ht _
  | @retired t cancelled ht hstage => exact h.retire cancelled
  | @begun front back c hcalls =>
    refine h.with_calls (fun work hwaited => ?_) (fun hnone => ?_) (fun hremove d hd => ?_) h.keyed
      (.refl _ _ _) (.refl _ _ _)
    · obtain ⟨rfl, rfl, begun, rfl⟩ := hwaited.eq_of_calls hcalls
      exact ⟨true, rfl⟩
    · exact absurd hnone (by simp [hcalls])
    · rw [hcalls] at hremove
      rcases List.mem_append.mp hd with hd | hd
      · exact hremove d (by simp [hd])
      · rcases List.mem_cons.mp hd with rfl | hd
        · exact hremove c (by simp)
        · exact hremove d (by simp [hd])
  | finished hcalls hjob hbegun harea =>
    exact h.finish hpack hapart ⟨r, htaken⟩ hsound hcalls hjob harea
  | @dropped front back c hcalls hbegun hawaited =>
    refine h.with_calls (fun work hwaited => ?_) (fun hnone => ?_) (fun hremove d hd => ?_) h.keyed
      (.refl _ _ _) (.refl _ _ _)
    · obtain ⟨rfl, rfl, begun, rfl⟩ := hwaited.eq_of_calls hcalls
      cases hawaited
    · exact absurd hnone (by simp [hcalls])
    · rw [hcalls] at hremove
      rcases List.mem_append.mp hd with hd | hd
      · exact hremove d (by simp [hd])
      · exact hremove d (by simp [hd])
  | @elsewhere c a hother hjob harea =>
    exact h.with_calls (fun _ => id) id id (keyed_effect hpack h.keyed c a)
      (hapart.sparesArea hpack ⟨r, htaken⟩ hother hjob harea)
      (hapart.sparesPackage hpack ⟨r, htaken⟩ hother hjob harea)

/-- What was staged before a cancellation does not matter unless the task has not started. -/
theorem OnCourse.cancelled (h : OnCourse s v files t) (hjob : v'.job = v.job)
    (htree : v'.tree = v.tree) (hnone : v.calls = [] → v'.calls = []) :
    OnCourse s v' files { t with signal := some .cancelled } := by
  unfold OnCourse at h ⊢
  rw [hjob, htree]
  cases hstage : t.stage with
  | scheduled =>
    simp only [hstage] at h
    exact ⟨hnone h.1, h.2⟩
  | waiting =>
    simp only [hstage] at h
    exact ⟨hnone h.1, h.2⟩
  | writing rest =>
    simp only [hstage] at h
    obtain ⟨done, f, hfiles, -⟩ := h
    exact ⟨done, f, hfiles, trivial⟩
  | _ => trivial

/-- **A job that is cancelled leaves its course, and stays completed if it is.** -/
theorem course_cancel (h : Course s r v) : Course s r v.cancel := by
  unfold Standing.cancel
  cases ht : v.task with
  | none => exact h
  | some t =>
    by_cases hended : t.isEnded = true
    · simp only [if_pos hended]
      exact h
    · simp only [if_neg hended]
      refine ⟨h.keyed, ?_, h.unused, ?_, fun rec hrec hstatus => ?_⟩
      · intro t' ht'
        cases ht'
        exact h.request t ht
      · intro t' ht'
        cases ht'
        exact (h.course t ht).cancelled rfl rfl fun hnone => by simp [hnone]
      · refine (h.completed rec hrec hstatus).imp rfl rfl (fun hremove c hc => ?_) (.refl _ _ _)
        obtain ⟨c', hc', rfl⟩ := List.mem_map.mp hc
        have hwork := hremove c' hc'
        split_ifs <;> exact hwork

end Steps

end EntityScaffold
