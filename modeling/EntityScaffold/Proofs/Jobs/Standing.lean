import EntityScaffold.Jobs.Pipeline
import EntityScaffold.Proofs.Collecting
import Mathlib.Logic.Relation

/-!
# What can happen to one job

A pipeline runs many jobs, but what becomes of one of them can be told from its record, its task,
its calls, its staging area and the files. `Standing.Happens` lists everything that changes these:
the turns of the job's task, the workers on its calls, and what other jobs do, which is to call the
task to a slot and to change files. Cancellation is apart (`Standing.cancel`), because it can come
at any time.

* `Standing`: what concerns one job; `Pipeline.standing` takes it from a pipeline.
* `Standing.Happens`: one thing that happens to a job.
* `Stage.fits`: the states of the record that go with a stage of the task.
* `Standing.Sound`: record, task, calls and area belong together.

Results:
* `Standing.sound_happens`, `Standing.sound_cancel`: they go on belonging together.
* `Standing.settled_happens`: nothing happens to the record of a job whose task is gone.
-/

namespace EntityScaffold

/-! ## One job -/

/-- What concerns one job. -/
structure Standing where
  job : String
  record : Option Job
  /-- The task; its slot is left out. -/
  task : Option Task
  calls : List WorkerCall
  area : Option StagingArea
  tree : FileTree FileBody

/-- A task without its slot. -/
def Task.bare (t : Task) : Task := { t with holdsSlot := false }

/-- What concerns one job in a pipeline. -/
def Pipeline.standing (p : Pipeline) (job : String) : Standing where
  job
  record := p.registry.get? job
  task := (p.task? job).map Task.bare
  calls := p.calls.filter (·.job == job)
  area := p.areas.lookup job
  tree := p.tree

namespace Stage

/-- The files that are to be staged next, when the task stands where one is staged. -/
def pending? (files : List (String × String)) : Stage → Option (List (String × String))
  | .creating => some files
  | .writing rest => some rest
  | _ => none

/-- Why the staging directory is removed in this turn, if it is, and the task then gives up. -/
def cleanUp? : Stage → Signal → Option GivingUp
  | .writing _, .cancelled => some .cancelled
  | .settling, .cancelled => some .cancelled
  | .discarding, .cancelled => some .cancelled
  | .discarding, .done (.ok ()) => some .cancelled
  | .writing _, .done (.error e) => some (.failed e.message)
  | .packaging, .done (.error e) => some (.failed e.message)
  | .discarding, .done (.error e) => some (.failed e.message)
  | _, _ => none

/-- How the task ends in this turn, if it does. -/
def conclusion? : Stage → Signal → Option (Option GivingUp)
  | .waiting, .cancelled => some (some .cancelled)
  | .creating, .cancelled => some (some .cancelled)
  | .creating, .done (.error e) => some (some (.failed e.message))
  | .removing _, .cancelled => some (some .cancelled)
  | .removing cause, .done (.ok ()) => some cause
  | .removing cause, .done (.error e) =>
    some (if e.isSystem then cause else some (.failed e.message))
  | _, _ => none

/-- The states in which the record of a job may be while its task stands at a stage. -/
def fits : Stage → JobStatus → Bool
  | .scheduled, status => status == .queued
  | .waiting, status => status == .queued
  | .creating, status => status == .processing
  | .writing _, status => status == .processing
  | .packaging, status => status == .processing
  | .settling, status => status == .processing
  | .discarding, status => status == .processing
  | .removing none, status => status == .completed
  | .removing (some _), status => status == .processing
  | .ended cancelled, status => status.isTerminal || (cancelled && status == .queued)

end Stage

/-- An area is fixed by its path until files are staged. -/
theorem StagingArea.of_eq_ok {root : Path} {job : String} {a : StagingArea}
    (h : StagingArea.of root job = .ok a) : a = ⟨a.path, []⟩ := by
  simp only [StagingArea.of] at h
  split_ifs at h
  cases h
  rfl

namespace Standing

/-- The record moves on. -/
def become (v : Standing) (status : JobStatus) (message : String)
    (downloadName : Option String := none) : Standing :=
  { v with record := v.record.map fun r => ⟨r.id, status, message, downloadName⟩ }

/-- The job is marked as failed, unless its outcome is settled. -/
def fail (v : Standing) (message : String) : Standing :=
  if v.record.any (·.status.isTerminal) then v else v.become .error message

/-- The task comes to a stage. -/
def place (v : Standing) (t : Task) (stage : Stage) (signal : Option Signal) : Standing :=
  { v with task := some { t with stage, signal } }

/-- The task gives a call to the workers and waits for it. -/
def hand (v : Standing) (t : Task) (work : Work) (stage : Stage) : Standing :=
  { v.place t stage none with calls := v.calls ++ [{ job := v.job, work }] }

/-- The task removes its staging directory before it ends. -/
def cleanUp (v : Standing) (t : Task) (cause : Option GivingUp) : Standing :=
  v.hand t .remove (.removing cause)

/-- The task ends, and its job, if it is given up, is marked as failed. -/
def conclude (v : Standing) (t : Task) (cause : Option GivingUp) : Standing :=
  match cause with
  | none => v.place t (.ended false) none
  | some .cancelled => (v.fail cancelledMessage).place t (.ended true) none
  | some (.failed m) => (v.fail (failureMessage m)).place t (.ended false) none

/-- The task that waits for a call is told its result. -/
def deliver (v : Standing) (c : WorkerCall) (result : Except PackageError Unit) : Standing :=
  match v.task with
  | none => v
  | some t =>
    if c.awaited && t.signal.isNone && Pipeline.Stage.awaits t.stage c.work then
      v.place t t.stage (some (.done result))
    else v

/-- The task is cancelled, if it is not over. -/
def cancel (v : Standing) : Standing :=
  match v.task with
  | none => v
  | some t =>
    if t.isEnded then v
    else
      { v with
        calls := v.calls.map fun c =>
          if !Pipeline.Stage.shields t.stage then { c with awaited := false } else c
        task := some { t with signal := some .cancelled } }

/-- What a call does to the files. -/
def effect (s : PipelineSetup) (tree : FileTree FileBody) (c : WorkerCall) (a : StagingArea) :
    FileTree FileBody × StagingArea × Except PackageError Unit :=
  Pipeline.perform { setup := s, tree } c a

/-- A worker is done with a call of the job; the others are left. -/
def finish (s : PipelineSetup) (v : Standing) (c : WorkerCall) (a : StagingArea)
    (calls : List WorkerCall) : Standing :=
  deliver
    { v with
      tree := (effect s v.tree c a).1
      area := some (effect s v.tree c a).2.1
      calls }
    c (effect s v.tree c a).2.2

/-- The task waits in line for a slot. -/
def Waits (v : Standing) : Prop := ∃ t, v.task = some t ∧ t.stage = .waiting ∧ t.signal = none

/-- One thing that happens to a job, cancellation apart. The requests that are taken are those that
`taken` holds of. -/
inductive Happens (s : PipelineSetup) (taken : String → Request → Prop) : Standing → Standing → Prop
  /-- A request is taken. -/
  | submitted {v : Standing} {r : Request} (htaken : taken v.job r) (hrecord : v.record = none) :
      Happens s taken v
        { v with
          record := some { id := v.job, message := queuedMessage }
          task := some { job := v.job, request := r } }
  /-- A task that was cancelled before its first turn ends. -/
  | skipped {v : Standing} {t : Task} (ht : v.task = some t) (hstage : t.stage = .scheduled)
      (hsignal : t.signal = some .cancelled) : Happens s taken v (v.place t (.ended true) none)
  /-- No slot is free. -/
  | queued {v : Standing} {t : Task} (ht : v.task = some t) (hstage : t.stage = .scheduled)
      (hsignal : t.signal = some (.done (.ok ()))) : Happens s taken v (v.place t .waiting none)
  /-- Another job leaves its slot to this one. -/
  | called {v : Standing} {t : Task} (ht : v.task = some t) (hstage : t.stage = .waiting)
      (hsignal : t.signal = none) :
      Happens s taken v (v.place t .waiting (some (.done (.ok ()))))
  | started {v : Standing} {t : Task} {area : StagingArea} (ht : v.task = some t)
      (hstage : t.stage = .scheduled ∨ t.stage = .waiting)
      (hsignal : t.signal = some (.done (.ok ())))
      (harea : StagingArea.of s.stagingRoot v.job = .ok area) :
      Happens s taken v
        ({ v.become .processing processingMessage with area := some area }.hand t .create .creating)
  /-- The job's name is none for a directory. -/
  | refused {v : Standing} {t : Task} {e : FileError} (ht : v.task = some t)
      (hstage : t.stage = .scheduled ∨ t.stage = .waiting)
      (hsignal : t.signal = some (.done (.ok ())))
      (harea : StagingArea.of s.stagingRoot v.job = .error e) :
      Happens s taken v
        ((v.become .processing processingMessage).conclude t (some (.failed e.message)))
  /-- The next file is to be staged. -/
  | continued {v : Standing} {t : Task} {path text : String} {rest : List (String × String)}
      (ht : v.task = some t) (hsignal : t.signal = some (.done (.ok ())))
      (hpending : t.stage.pending? (s.generate t.request).files = some ((path, text) :: rest)) :
      Happens s taken v (v.hand t (.write path text) (.writing rest))
  /-- The generator gives up after its last file. -/
  | gaveUp {v : Standing} {t : Task} {m : String} (ht : v.task = some t)
      (hsignal : t.signal = some (.done (.ok ())))
      (hpending : t.stage.pending? (s.generate t.request).files = some [])
      (hfailure : (s.generate t.request).failure = some m) :
      Happens s taken v (v.cleanUp t (some (.failed m)))
  /-- Every file is staged. -/
  | staged {v : Standing} {t : Task} (ht : v.task = some t)
      (hsignal : t.signal = some (.done (.ok ())))
      (hpending : t.stage.pending? (s.generate t.request).files = some [])
      (hfailure : (s.generate t.request).failure = none) :
      Happens s taken v (v.hand t .archive .packaging)
  | completed {v : Standing} {t : Task} (ht : v.task = some t) (hstage : t.stage = .packaging)
      (hsignal : t.signal = some (.done (.ok ()))) :
      Happens s taken v
        ((v.become .completed
          (completionMessage ((v.area.map (·.records.length)).getD 0)
            t.request.validTables.length)
          (some (packageName v.job))).cleanUp t none)
  /-- A task that was cancelled waits for its writer. -/
  | settled {v : Standing} {t : Task} (ht : v.task = some t) (hstage : t.stage = .packaging)
      (hsignal : t.signal = some .cancelled) :
      Happens s taken v (v.place t .settling
        (if v.calls.any (·.work == .archive) then none else some (.done (.ok ()))))
  | discarded {v : Standing} {t : Task} {r : Except PackageError Unit} (ht : v.task = some t)
      (hstage : t.stage = .settling) (hsignal : t.signal = some (.done r)) :
      Happens s taken v (v.hand t .discard .discarding)
  | cleanedUp {v : Standing} {t : Task} {signal : Signal} {cause : GivingUp}
      (ht : v.task = some t) (hsignal : t.signal = some signal)
      (hcause : t.stage.cleanUp? signal = some cause) :
      Happens s taken v (v.cleanUp t (some cause))
  | concluded {v : Standing} {t : Task} {signal : Signal} {cause : Option GivingUp}
      (ht : v.task = some t) (hsignal : t.signal = some signal)
      (hcause : t.stage.conclusion? signal = some cause) : Happens s taken v (v.conclude t cause)
  | retired {v : Standing} {t : Task} {cancelled : Bool} (ht : v.task = some t)
      (hstage : t.stage = .ended cancelled) :
      Happens s taken v
        (if cancelled then { v with task := none }.fail cancelledMessage
        else { v with task := none })
  | begun {v : Standing} {front back : List WorkerCall} {c : WorkerCall}
      (hcalls : v.calls = front ++ c :: back) :
      Happens s taken v { v with calls := front ++ { c with begun := true } :: back }
  | finished {v : Standing} {front back : List WorkerCall} {c : WorkerCall} {a : StagingArea}
      (hcalls : v.calls = front ++ c :: back) (hjob : c.job = v.job) (hbegun : c.begun = true)
      (harea : v.area = some a) : Happens s taken v (v.finish s c a (front ++ back))
  | dropped {v : Standing} {front back : List WorkerCall} {c : WorkerCall}
      (hcalls : v.calls = front ++ c :: back) (hbegun : c.begun = false)
      (hawaited : c.awaited = false) : Happens s taken v { v with calls := front ++ back }
  /-- A worker is done with a call of another job. -/
  | elsewhere {v : Standing} {c : WorkerCall} {a : StagingArea} (hother : ∃ r, taken c.job r)
      (hjob : c.job ≠ v.job) (harea : StagingArea.of s.stagingRoot c.job = .ok ⟨a.path, []⟩) :
      Happens s taken v { v with tree := (effect s v.tree c a).1 }

/-- A job that nothing is known of. -/
def unknown (job : String) (tree : FileTree FileBody) : Standing :=
  ⟨job, none, none, [], none, tree⟩

/-! ## What belongs together -/

/-- The record belongs to the job and names its package exactly when the job is completed. -/
structure Records (job : String) (r : Job) : Prop where
  id : r.id = job
  downloadName : r.downloadName = if r.status = .completed then some (packageName job) else none

/-- Record, task, calls and area belong together. -/
structure Sound (s : PipelineSetup) (v : Standing) : Prop where
  /-- Nothing is known of a job that is not registered. -/
  unknown : v.record = none → v.task = none ∧ v.calls = [] ∧ v.area = none
  records : ∀ r, v.record = some r → Records v.job r
  fits : ∀ t r, v.task = some t → v.record = some r → t.stage.fits r.status = true
  /-- A job without a task is over. -/
  settled : ∀ r, v.task = none → v.record = some r → r.status.isTerminal = true
  area : ∀ a, v.area = some a → StagingArea.of s.stagingRoot v.job = .ok ⟨a.path, []⟩

variable {s : PipelineSetup} {taken : String → Request → Prop} {v v' : Standing} {t : Task}
  {r : Job}

@[simp] theorem fail_job (m : String) : (v.fail m).job = v.job := by
  unfold fail
  split_ifs <;> rfl

@[simp] theorem fail_task (m : String) : (v.fail m).task = v.task := by
  unfold fail
  split_ifs <;> rfl

@[simp] theorem fail_calls (m : String) : (v.fail m).calls = v.calls := by
  unfold fail
  split_ifs <;> rfl

@[simp] theorem fail_tree (m : String) : (v.fail m).tree = v.tree := by
  unfold fail
  split_ifs <;> rfl

@[simp] theorem fail_area (m : String) : (v.fail m).area = v.area := by
  unfold fail
  split_ifs <;> rfl

theorem Records.become (h : Records v.job r) {status : JobStatus} (message : String)
    (hstatus : status ≠ .completed) : Records v.job ⟨r.id, status, message, none⟩ :=
  ⟨h.id, (if_neg hstatus).symm⟩

theorem sound_unknown (s : PipelineSetup) (job : String) (tree : FileTree FileBody) :
    Sound s (unknown job tree) := by
  refine ⟨fun _ => ⟨rfl, rfl, rfl⟩, ?_, ?_, ?_, ?_⟩
  · intro r hr
    cases hr
  · intro t r ht
    cases ht
  · intro r _ hr
    cases hr
  · intro a ha
    cases ha

theorem Sound.exists_record (h : Sound s v) (ht : v.task = some t) : ∃ r, v.record = some r := by
  cases hrecord : v.record with
  | none =>
    have hnone := (h.unknown hrecord).1
    rw [ht] at hnone
    cases hnone
  | some r => exact ⟨r, rfl⟩

/-- A job with a record and a task is sound when these two fit. -/
theorem sound_of_task (hr : v.record = some r) (ht : v.task = some t) (hrecords : Records v.job r)
    (hfits : t.stage.fits r.status = true)
    (harea : ∀ a, v.area = some a → StagingArea.of s.stagingRoot v.job = .ok ⟨a.path, []⟩) :
    Sound s v := by
  refine ⟨?_, ?_, ?_, ?_, harea⟩
  · intro hnone
    rw [hr] at hnone
    cases hnone
  · intro r' hr'
    rw [hr] at hr'
    cases hr'
    exact hrecords
  · intro t' r' ht' hr'
    rw [ht] at ht'
    rw [hr] at hr'
    cases ht'
    cases hr'
    exact hfits
  · intro r' hnone
    rw [ht] at hnone
    cases hnone

/-- A job that is over is sound without a task. -/
theorem sound_of_over (hr : v.record = some r) (ht : v.task = none) (hrecords : Records v.job r)
    (hover : r.status.isTerminal = true)
    (harea : ∀ a, v.area = some a → StagingArea.of s.stagingRoot v.job = .ok ⟨a.path, []⟩) :
    Sound s v := by
  refine ⟨?_, ?_, ?_, ?_, harea⟩
  · intro hnone
    rw [hr] at hnone
    cases hnone
  · intro r' hr'
    rw [hr] at hr'
    cases hr'
    exact hrecords
  · intro t r' ht'
    rw [ht] at ht'
    cases ht'
  · intro r' _ hr'
    rw [hr] at hr'
    cases hr'
    exact hover

theorem record_become (hr : v.record = some r) (status : JobStatus) (message : String)
    (downloadName : Option String) :
    (v.become status message downloadName).record = some ⟨r.id, status, message, downloadName⟩ := by
  unfold become
  rw [hr]
  rfl

/-- A failed job is over. -/
theorem record_fail (hr : v.record = some r) (hrecords : Records v.job r) (m : String) :
    ∃ r', (v.fail m).record = some r' ∧ Records v.job r' ∧ r'.status.isTerminal = true := by
  unfold fail
  rw [hr, Option.any_some]
  split_ifs with hterminal
  · exact ⟨r, hr, hrecords, hterminal⟩
  · exact ⟨_, record_become hr .error m none, hrecords.become m (by decide), rfl⟩

/-- What a task leaves that ends. -/
theorem conclude_cases (v : Standing) (t : Task) (cause : Option GivingUp) :
    ∃ (w : Standing) (cancelled : Bool), v.conclude t cause = w.place t (.ended cancelled) none ∧
      (w = v ∨ ∃ m, w = v.fail m) := by
  match cause with
  | none => exact ⟨v, false, rfl, .inl rfl⟩
  | some .cancelled => exact ⟨v.fail cancelledMessage, true, rfl, .inr ⟨_, rfl⟩⟩
  | some (.failed m) => exact ⟨v.fail (failureMessage m), false, rfl, .inr ⟨_, rfl⟩⟩

theorem fits_ended {status : JobStatus} (h : status.isTerminal = true) (cancelled : Bool) :
    (Stage.ended cancelled).fits status = true := by
  simp [Stage.fits, h]

theorem sound_conclude (hr : v.record = some r) (hrecords : Records v.job r)
    (harea : ∀ a, v.area = some a → StagingArea.of s.stagingRoot v.job = .ok ⟨a.path, []⟩)
    {cause : Option GivingUp} (hcause : cause = none → r.status.isTerminal = true) :
    Sound s (v.conclude t cause) := by
  cases cause with
  | none => exact sound_of_task hr rfl hrecords (fits_ended (hcause rfl) false) harea
  | some cause =>
    have hfailed : ∀ (m : String) (b : Bool), Sound s ((v.fail m).place t (.ended b) none) := by
      intro m b
      obtain ⟨r', hr', hrecords', hterminal⟩ := record_fail hr hrecords m
      refine sound_of_task hr' rfl ?_ (fits_ended hterminal b) ?_
      · simpa [place] using hrecords'
      · simpa [place] using harea
    cases cause with
    | cancelled => exact hfailed cancelledMessage true
    | failed m => exact hfailed (failureMessage m) false

/-- A task may come to a stage that fits the record. -/
theorem Sound.place (h : Sound s v) (ht : v.task = some t) {stage : Stage} (signal : Option Signal)
    (hfits : ∀ status, t.stage.fits status = true → stage.fits status = true) :
    Sound s (v.place t stage signal) := by
  obtain ⟨r, hr⟩ := h.exists_record ht
  exact sound_of_task hr rfl (h.records r hr) (hfits _ (h.fits t r ht hr)) h.area

/-- Calls do not matter for a job with a task. -/
theorem Sound.hand (h : Sound s v) (ht : v.task = some t) (work : Work) {stage : Stage}
    (hfits : ∀ status, t.stage.fits status = true → stage.fits status = true) :
    Sound s (v.hand t work stage) := by
  obtain ⟨r, hr⟩ := h.exists_record ht
  exact sound_of_task hr rfl (h.records r hr) (hfits _ (h.fits t r ht hr)) h.area

theorem eq_processing_of_pending? {files rest : List (String × String)} {stage : Stage}
    (h : stage.pending? files = some rest) {status : JobStatus} (hfits : stage.fits status = true) :
    status = .processing := by
  cases stage <;> simp_all [Stage.pending?, Stage.fits]

theorem eq_processing_of_cleanUp? {stage : Stage} {signal : Signal} {cause : GivingUp}
    (h : stage.cleanUp? signal = some cause) {status : JobStatus}
    (hfits : stage.fits status = true) : status = .processing := by
  cases stage <;> simp_all [Stage.cleanUp?, Stage.fits]

/-- A task that ends without giving its job up has completed it. -/
theorem isTerminal_of_conclusion? {stage : Stage} {signal : Signal}
    (h : stage.conclusion? signal = some none) {status : JobStatus}
    (hfits : stage.fits status = true) : status.isTerminal = true := by
  cases stage with
  | removing cause =>
    obtain rfl : cause = none := by
      unfold Stage.conclusion? at h
      split at h <;> try split_ifs at h
      all_goals simp_all
    have hcompleted : status = .completed := by simpa [Stage.fits] using hfits
    rw [hcompleted]
    rfl
  | _ => cases signal <;> simp_all [Stage.conclusion?] <;> split at h <;> simp_all

theorem ne_notFound_of_fits {stage : Stage} {status : JobStatus}
    (h : stage.fits status = true) : status ≠ .notFound := by
  rintro rfl
  cases stage with
  | removing cause => cases cause <;> simp [Stage.fits] at h
  | _ => simp [Stage.fits, JobStatus.isTerminal] at h

theorem Sound.ne_none_of_calls (h : Sound s v) (hcalls : v.calls ≠ []) : v.record ≠ none :=
  fun hnone => hcalls (h.unknown hnone).2.1

/-- Calls and files may change for a job that is registered. -/
theorem Sound.with_files (h : Sound s v) (hrecord : v.record ≠ none) (calls : List WorkerCall)
    (area : Option StagingArea) (tree : FileTree FileBody)
    (harea : ∀ a, area = some a → StagingArea.of s.stagingRoot v.job = .ok ⟨a.path, []⟩) :
    Sound s { v with calls, area, tree } :=
  ⟨fun hnone => absurd hnone hrecord, h.records, h.fits, h.settled, harea⟩

theorem path_effect (s : PipelineSetup) (tree : FileTree FileBody) (c : WorkerCall)
    (a : StagingArea) : (effect s tree c a).2.1.path = a.path := by
  unfold effect Pipeline.perform
  cases c.work with
  | write path text =>
    unfold StagingArea.write
    simp only
    split
    · rename_i t area r h
      split at h
      · cases h
      · split at h
        · cases h
        · cases h
          rfl
    · rfl
  | _ => rfl

/-- A call that is done is told to the task that waits for it, or to nobody. -/
theorem deliver_cases (v : Standing) (c : WorkerCall) (result : Except PackageError Unit) :
    v.deliver c result = v ∨
      ∃ t, v.task = some t ∧ c.awaited = true ∧ t.signal = none ∧
        Pipeline.Stage.awaits t.stage c.work = true ∧
        v.deliver c result = v.place t t.stage (some (.done result)) := by
  unfold deliver
  cases ht : v.task with
  | none => exact .inl rfl
  | some t =>
    simp only
    split_ifs with hwaits
    · simp only [Bool.and_eq_true, Option.isNone_iff_eq_none] at hwaits
      exact .inr ⟨t, rfl, hwaits.1.1, hwaits.1.2, hwaits.2, rfl⟩
    · exact .inl rfl

theorem deliver_eq (v : Standing) (c : WorkerCall) (result : Except PackageError Unit) :
    v.deliver c result = { v with task := (v.deliver c result).task } := by
  rcases deliver_cases v c result with hsame | ⟨t, -, -, -, -, htold⟩
  · rw [hsame]
  · rw [htold]
    rfl

section Finish

variable (s : PipelineSetup) (v : Standing) (c : WorkerCall) (a : StagingArea)
  (calls : List WorkerCall)

@[simp] theorem finish_job : (v.finish s c a calls).job = v.job := by
  unfold finish
  rw [deliver_eq]

@[simp] theorem finish_record : (v.finish s c a calls).record = v.record := by
  unfold finish
  rw [deliver_eq]

@[simp] theorem finish_calls : (v.finish s c a calls).calls = calls := by
  unfold finish
  rw [deliver_eq]

@[simp] theorem finish_tree : (v.finish s c a calls).tree = (effect s v.tree c a).1 := by
  unfold finish
  rw [deliver_eq]

@[simp] theorem finish_area :
    (v.finish s c a calls).area = some (effect s v.tree c a).2.1 := by
  unfold finish
  rw [deliver_eq]

/-- The task is told the result, if it waits for it. -/
theorem task_finish :
    (v.finish s c a calls).task = v.task.map fun t =>
      if c.awaited && t.signal.isNone && Pipeline.Stage.awaits t.stage c.work then
        { t with signal := some (.done (effect s v.tree c a).2.2) }
      else t := by
  unfold finish deliver
  cases v.task with
  | none => rfl
  | some t =>
    simp only [Option.map_some]
    split_ifs <;> rfl

variable {v} in
/-- A call that is done does not move the task. -/
theorem exists_task_finish (ht : v.task = some t) :
    ∃ signal, (v.finish s c a calls).task = some { t with signal } := by
  rw [task_finish, ht, Option.map_some]
  split_ifs
  · exact ⟨_, rfl⟩
  · exact ⟨t.signal, rfl⟩

end Finish

/-- A task that can run is told nothing. -/
theorem task_finish_of_signal {s : PipelineSetup} {c : WorkerCall} {a : StagingArea}
    {calls : List WorkerCall} (ht : v.task = some t) (hsignal : t.signal ≠ none) :
    (v.finish s c a calls).task = some t := by
  have hnone : t.signal.isNone = false := by
    rwa [Option.isNone_eq_false_iff, Option.isSome_iff_ne_none]
  rw [task_finish, ht, Option.map_some, hnone, if_neg (by simp)]

/-! ## Waiting for a call -/

/-- A call is the only one of its job, and the task waits for it. -/
def Waited (v : Standing) (work : Work) : Prop :=
  ∃ begun, v.calls = [{ job := v.job, work, begun, awaited := true }]

/-- A call is the one that is alone. -/
theorem eq_of_lone {front back : List WorkerCall} {c d : WorkerCall}
    (h : front ++ c :: back = [d]) : front = [] ∧ back = [] ∧ c = d := by
  rcases List.append_eq_singleton_iff.mp h with ⟨hfront, hback⟩ | ⟨-, hback⟩
  · rw [List.cons_eq_cons] at hback
    exact ⟨hfront, hback.2, hback.1⟩
  · cases hback

/-- A call of the job is the one that its task waits for. -/
theorem Waited.eq_of_calls {work : Work} (h : v.Waited work) {front back : List WorkerCall}
    {c : WorkerCall} (hcalls : v.calls = front ++ c :: back) :
    front = [] ∧ back = [] ∧ ∃ begun, c = { job := v.job, work, begun, awaited := true } := by
  obtain ⟨begun, hwaited⟩ := h
  obtain ⟨hfront, hback, hc⟩ := eq_of_lone (hcalls ▸ hwaited)
  exact ⟨hfront, hback, begun, hc⟩

/-- When the call that a task waits for is done, the task can run, and nothing is under way. -/
theorem Waited.finish {work : Work} {s : PipelineSetup} {front back : List WorkerCall}
    {c : WorkerCall} {a : StagingArea} (h : v.Waited work) (ht : v.task = some t)
    (hsignal : t.signal = none) (hwork : Pipeline.Stage.awaits t.stage work = true)
    (hcalls : v.calls = front ++ c :: back) :
    c.work = work ∧ (v.finish s c a (front ++ back)).calls = [] ∧
      (v.finish s c a (front ++ back)).task =
        some { t with signal := some (.done (effect s v.tree c a).2.2) } := by
  obtain ⟨rfl, rfl, begun, rfl⟩ := h.eq_of_calls hcalls
  refine ⟨rfl, by rw [finish_calls, List.append_nil], ?_⟩
  rw [task_finish, ht, Option.map_some, if_pos (by simp [hsignal, hwork])]

theorem waited_hand (t : Task) (work : Work) (stage : Stage) (h : v.calls = []) :
    (v.hand t work stage).Waited work :=
  ⟨false, by simp [Standing.hand, Standing.place, h]⟩

/-- **Record, task, calls and area go on belonging together.** -/
theorem sound_happens (h : Sound s v) (hstep : Happens s taken v v') : Sound s v' := by
  cases hstep with
  | submitted htaken hrecord =>
    refine sound_of_task rfl rfl ⟨rfl, rfl⟩ rfl ?_
    intro a ha
    rw [(h.unknown hrecord).2.2] at ha
    cases ha
  | skipped ht hstage hsignal =>
    refine h.place ht none fun status hfits => ?_
    rw [hstage] at hfits
    simpa [Stage.fits] using Or.inr hfits
  | queued ht hstage hsignal =>
    exact h.place ht none fun status hfits => by rwa [hstage] at hfits
  | called ht hstage hsignal => exact h.place ht _ fun status hfits => hstage ▸ hfits
  | @started t area ht hstage hsignal harea =>
    obtain ⟨r, hr⟩ := h.exists_record ht
    refine sound_of_task (record_become hr .processing processingMessage none) rfl
      ((h.records r hr).become _ (by decide)) rfl ?_
    intro a ha
    cases ha
    rw [StagingArea.of_eq_ok harea] at harea
    exact harea
  | refused ht hstage hsignal harea =>
    obtain ⟨r, hr⟩ := h.exists_record ht
    refine sound_conclude (record_become hr .processing processingMessage none)
      ((h.records r hr).become _ (by decide)) h.area ?_
    intro hnone
    cases hnone
  | continued ht hsignal hpending =>
    exact h.hand ht _ fun status hfits => by
      simpa [Stage.fits] using eq_processing_of_pending? hpending hfits
  | gaveUp ht hsignal hpending hfailure =>
    exact h.hand ht _ fun status hfits => by
      simpa [Stage.fits] using eq_processing_of_pending? hpending hfits
  | staged ht hsignal hpending hfailure =>
    exact h.hand ht _ fun status hfits => by
      simpa [Stage.fits] using eq_processing_of_pending? hpending hfits
  | @completed t ht hstage hsignal =>
    obtain ⟨r, hr⟩ := h.exists_record ht
    exact sound_of_task (record_become hr .completed _ (some (packageName v.job))) rfl
      ⟨(h.records r hr).id, (if_pos rfl).symm⟩ rfl h.area
  | settled ht hstage hsignal =>
    exact h.place ht _ fun status hfits => by rwa [hstage] at hfits
  | discarded ht hstage hsignal =>
    exact h.hand ht _ fun status hfits => by rwa [hstage] at hfits
  | cleanedUp ht hsignal hcause =>
    exact h.hand ht _ fun status hfits => by
      simpa [Stage.fits] using eq_processing_of_cleanUp? hcause hfits
  | concluded ht hsignal hcause =>
    obtain ⟨r, hr⟩ := h.exists_record ht
    refine sound_conclude hr (h.records r hr) h.area ?_
    rintro rfl
    exact isTerminal_of_conclusion? hcause (h.fits _ r ht hr)
  | @retired t cancelled ht hstage =>
    obtain ⟨r, hr⟩ := h.exists_record ht
    have hfits := h.fits t r ht hr
    rw [hstage] at hfits
    cases cancelled with
    | false =>
      rw [if_neg Bool.false_ne_true]
      exact sound_of_over hr rfl (h.records r hr) (by simpa [Stage.fits] using hfits) h.area
    | true =>
      rw [if_pos rfl]
      obtain ⟨r', hr', hrecords, hover⟩ :=
        record_fail (v := { v with task := none }) hr (h.records r hr) cancelledMessage
      exact sound_of_over hr' (by simp) (by simpa using hrecords) hover (by simpa using h.area)
  | begun hcalls =>
    exact h.with_files (h.ne_none_of_calls (by simp [hcalls])) _ _ _ h.area
  | @finished front back c a hcalls hjob hbegun harea =>
    have hfiles := h.with_files (h.ne_none_of_calls (by simp [hcalls])) (front ++ back)
      (some (effect s v.tree c a).2.1) (effect s v.tree c a).1 (by
        intro a' ha'
        cases ha'
        rw [path_effect]
        exact h.area a harea)
    unfold finish
    rcases deliver_cases _ c (effect s v.tree c a).2.2 with hsame | ⟨t, ht, -, -, -, htold⟩
    · rw [hsame]
      exact hfiles
    · rw [htold]
      exact hfiles.place ht _ fun status hfits => hfits
  | dropped hcalls hbegun hawaited =>
    exact h.with_files (h.ne_none_of_calls (by simp [hcalls])) _ _ _ h.area
  | elsewhere hother hjob harea =>
    exact ⟨h.unknown, h.records, h.fits, h.settled, h.area⟩

theorem sound_reaches (h : Sound s v) (hsteps : Relation.ReflTransGen (Happens s taken) v v') :
    Sound s v' := by
  induction hsteps with
  | refl => exact h
  | tail _ hstep ih => exact sound_happens ih hstep

/-- What everything that happens to a sound job keeps is kept by many such things. -/
theorem reaches_induction {P : Standing → Prop}
    (hhappens : ∀ v v', Sound s v → P v → Happens s taken v v' → P v') (h : Sound s v) (hv : P v)
    (hsteps : Relation.ReflTransGen (Happens s taken) v v') : P v' := by
  induction hsteps with
  | refl => exact hv
  | tail hbefore hstep ih => exact hhappens _ _ (sound_reaches h hbefore) ih hstep

/-- A job keeps its name. -/
theorem job_happens (hstep : Happens s taken v v') : v'.job = v.job := by
  cases hstep with
  | refused ht hstage hsignal harea =>
    obtain ⟨w, b, hconclude, rfl | ⟨m, rfl⟩⟩ := conclude_cases _ _ _
    · rw [hconclude]
      rfl
    · rw [hconclude]
      exact fail_job m
  | concluded ht hsignal hcause =>
    obtain ⟨w, b, hconclude, rfl | ⟨m, rfl⟩⟩ := conclude_cases _ _ _
    · rw [hconclude]
      rfl
    · rw [hconclude]
      exact fail_job m
  | @retired t cancelled ht hstage =>
    cases cancelled with
    | false => rfl
    | true => exact fail_job _
  | finished hcalls hjob hbegun harea => exact finish_job _ _ _ _ _
  | _ => rfl

/-- Cancelling a task moves no record. -/
theorem sound_cancel (h : Sound s v) : Sound s v.cancel := by
  unfold cancel
  cases ht : v.task with
  | none => exact h
  | some t =>
    by_cases hended : t.isEnded = true
    · simp only [if_pos hended]
      exact h
    · simp only [if_neg hended]
      obtain ⟨r, hr⟩ := h.exists_record ht
      exact sound_of_task hr rfl (h.records r hr) (h.fits t r ht hr) h.area

/-- **Nothing happens any more to the record of a job whose task is gone.** -/
theorem settled_happens (hr : v.record = some r) (ht : v.task = none)
    (hstep : Happens s taken v v') : v'.record = some r ∧ v'.task = none := by
  cases hstep with
  | submitted htaken hrecord =>
    rw [hr] at hrecord
    cases hrecord
  | begun hcalls => exact ⟨hr, ht⟩
  | finished hcalls hjob hbegun harea =>
    unfold finish deliver
    simp only [ht]
    exact ⟨hr, trivial⟩
  | dropped hcalls hbegun hawaited => exact ⟨hr, ht⟩
  | elsewhere hother hjob harea => exact ⟨hr, ht⟩
  | _ ht' =>
    rw [ht] at ht'
    cases ht'

theorem settled_reaches (hr : v.record = some r) (ht : v.task = none)
    (hsteps : Relation.ReflTransGen (Happens s taken) v v') :
    v'.record = some r ∧ v'.task = none := by
  induction hsteps with
  | refl => exact ⟨hr, ht⟩
  | tail _ hstep ih => exact settled_happens ih.1 ih.2 hstep

theorem settled_cancel (ht : v.task = none) : v.cancel = v := by
  unfold cancel
  rw [ht]

end Standing

end EntityScaffold
