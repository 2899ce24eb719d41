import EntityScaffold.Jobs.Registry
import EntityScaffold.Jobs.Slots
import EntityScaffold.Jobs.Task
import EntityScaffold.Text.FileName

/-!
# The job pipeline

The state in which jobs run side by side, and everything that can happen to it.

* `Event`: a submission, a turn of one task, the retirement of a task that ended, a step of a
  worker, a cancellation, a shutdown. `Pipeline.step` says what each does; one that cannot happen
  in a state leaves it alone.
* `Pipeline.run`: a whole history. The states that any history reaches from an empty pipeline are
  all states there are, so nothing is assumed about the order in which tasks and workers proceed.

Between two events nothing changes: the turn of a task goes from one wait to the next, and a worker
call takes effect when it is finished.

Model of `submit`, `_on_task_done`, `_run_job`, `_execute`, `_write_package`, `cancel` and
`shutdown` of `JobPipeline`. The files of a job come from `iter_artifacts`, here a `Generator` that
may give up.
-/

namespace EntityScaffold

/-- Makes a package of a directory: the tree, the directory and the place of the package. -/
abbrev Packager :=
  FileTree FileBody → Path → Path → FileTree FileBody × Except PackageError Unit

/-- What stays the same while a pipeline runs. -/
structure PipelineSetup where
  stagingRoot : Path
  packageDirectory : Path
  /-- How many jobs may run at once, if there is a limit. -/
  limit : Option Nat := none
  generate : Generator := .standard
  pack : Packager := Package.ofDirectory

/-- A pipeline of jobs. -/
structure Pipeline where
  setup : PipelineSetup
  tree : FileTree FileBody := {}
  registry : Registry := {}
  /-- The tasks that have not been retired, in the order of submission. -/
  tasks : List Task := []
  /-- The staging areas of the jobs that have started. -/
  areas : List (String × StagingArea) := []
  /-- The calls that are not finished, in the order in which they were given. -/
  calls : List WorkerCall := []
  /-- Slots, if there is a limit. -/
  slots : Option Slots := none
  /-- Moves of jobs that the registry refused. -/
  refusals : List JobError := []

/-- What can happen. Calls are named by their place among the unfinished ones. -/
inductive Event where
  | submit (job : String) (request : Request)
  /-- A task runs until it waits again or ends. -/
  | resume (job : String)
  /-- The end of a task is taken note of. -/
  | retire (job : String)
  /-- A worker begins with a call. -/
  | begin (call : Nat)
  /-- A worker is done with a call. -/
  | finish (call : Nat)
  /-- A call that nobody waits for and no worker has begun is taken back. -/
  | drop (call : Nat)
  | cancel (job : String)
  | shutdown

/-- The message of a job that runs. -/
def processingMessage : String := "Generating code."

/-- The message of a job that was cancelled. -/
def cancelledMessage : String := "Error: job was cancelled."

/-- The message of a job that failed. -/
def failureMessage (cause : String) : String := "Error: " ++ cause

/-- The answer to a request without a valid table. -/
def noTablesMessage : String := "No valid tables were provided."

/-- The message of a job that is completed. -/
def completionMessage (files tables : Nat) : String :=
  s!"Code generation completed: {files} file(s) for {tables} table(s)."

namespace Pipeline

/-- A pipeline without jobs. -/
def start (setup : PipelineSetup) (tree : FileTree FileBody) : Pipeline :=
  { setup, tree, slots := setup.limit.map fun n => { free := n } }

/-- The task of a job. -/
def task? (p : Pipeline) (job : String) : Option Task := p.tasks.find? (·.job == job)

/-- Another task for a job that has one. -/
def putTask (p : Pipeline) (t : Task) : Pipeline :=
  { p with tasks := p.tasks.map fun u => if u.job == t.job then t else u }

/-- Moves a job in the registry. -/
def move (p : Pipeline) (job : String) (target : JobStatus) (message : String)
    (downloadName : Option String := none) : Pipeline :=
  match p.registry.transition job target message downloadName with
  | .ok (registry, _) => { p with registry }
  | .error e => { p with refusals := p.refusals ++ [e] }

/-- Marks a job as failed, unless its outcome is settled. -/
def fail (p : Pipeline) (job : String) (message : String) : Pipeline :=
  if p.registry.isTerminal job then p else p.move job .error message

/-- The place of a job's package. -/
def destination (p : Pipeline) (job : String) : Path :=
  p.setup.packageDirectory ++ [packageName job]

/-! ## Turns of a task -/

/-- The task gives a call to the workers and waits for it. -/
def hand (p : Pipeline) (t : Task) (work : Work) (stage : Stage) : Pipeline :=
  let p : Pipeline := { p with calls := p.calls ++ [{ job := t.job, work }] }
  p.putTask { t with stage, signal := none }

/-- The slots after a change, and the job that is called to one: its task can run. -/
def call (p : Pipeline) (r : Slots × Option String) : Pipeline :=
  match r.2 with
  | none => { p with slots := some r.1 }
  | some next =>
    { p with
      slots := some r.1
      tasks := p.tasks.map fun u =>
        if u.job == next then { u with holdsSlot := true, signal := some (.done (.ok ())) } else u }

/-- The slot of a task goes to the next one in line, or is free again. -/
def releaseSlot (p : Pipeline) (t : Task) : Pipeline :=
  match t.holdsSlot, p.slots with
  | true, some s => p.call s.release
  | _, _ => p

/-- The task ends: its slot is given back and its job, if it is given up, marked as failed. -/
def conclude (p : Pipeline) (t : Task) (cause : Option GivingUp) : Pipeline :=
  let p := p.releaseSlot t
  let ended (cancelled : Bool) : Task :=
    { t with stage := .ended cancelled, signal := none, holdsSlot := false }
  match cause with
  | none => p.putTask (ended false)
  | some .cancelled => (p.fail t.job cancelledMessage).putTask (ended true)
  | some (.failed m) => (p.fail t.job (failureMessage m)).putTask (ended false)

/-- The task removes its staging directory before it ends. -/
def cleanUp (p : Pipeline) (t : Task) (cause : Option GivingUp) : Pipeline :=
  p.hand t .remove (.removing cause)

/-- The task starts to work on its job. -/
def execute (p : Pipeline) (t : Task) : Pipeline :=
  let p := p.move t.job .processing processingMessage
  match StagingArea.of p.setup.stagingRoot t.job with
  | .error e => p.conclude t (some (.failed e.message))
  | .ok area => { p with areas := putMember p.areas t.job area }.hand t .create .creating

/-- The task runs for the first time. -/
def enter (p : Pipeline) (t : Task) : Pipeline :=
  match p.slots with
  | none => p.execute t
  | some s =>
    match s.acquire t.job with
    | (s, true) => { p with slots := some s }.execute { t with holdsSlot := true }
    | (s, false) =>
      { p with slots := some s }.putTask { t with stage := .waiting, signal := none }

/-- The task comes to the slot that it was called to. If more slots are free, the next one is
called. -/
def takeSlot (p : Pipeline) (t : Task) : Pipeline :=
  match p.slots with
  | none => p
  | some s => p.call (s.come t.job).callNext

/-- The task gives up waiting. If it was called to a slot, it comes to give that back. -/
def leaveLine (p : Pipeline) (t : Task) : Pipeline :=
  { p with slots := p.slots.map (·.come t.job) }

/-- The task goes on with the next file or, when there is none left, with the package. A generator
that gives up does so after its last file. -/
def goOn (p : Pipeline) (t : Task) (files : List (String × String)) : Pipeline :=
  match files with
  | (path, text) :: rest => p.hand t (.write path text) (.writing rest)
  | [] =>
    match (p.setup.generate t.request).failure with
    | some m => p.cleanUp t (some (.failed m))
    | none => p.hand t .archive .packaging

/-- The package is there. -/
def complete (p : Pipeline) (t : Task) : Pipeline :=
  let files := ((p.areas.lookup t.job).map (·.records.length)).getD 0
  let p := p.move t.job .completed (completionMessage files t.request.validTables.length)
    (some (packageName t.job))
  p.cleanUp t none

/-- A call of the job is being made or waits for a worker. -/
def isOutstanding (p : Pipeline) (job : String) (work : Work) : Bool :=
  p.calls.any fun c => c.job == job && c.work == work

/-- The task was cancelled while its archive is written, and waits for the writer. -/
def settle (p : Pipeline) (t : Task) : Pipeline :=
  let signal := if p.isOutstanding t.job .archive then none else some (.done (.ok ()))
  p.putTask { t with stage := .settling, signal }

/-- The turn of a task that was cancelled. -/
def yieldToCancel (p : Pipeline) (t : Task) : Pipeline :=
  match t.stage with
  | .scheduled => p.putTask { t with stage := .ended true, signal := none }
  | .waiting => (p.leaveLine t).conclude t (some .cancelled)
  | .creating => p.conclude t (some .cancelled)
  | .writing _ => p.cleanUp t (some .cancelled)
  | .packaging => p.settle t
  | .settling => p.cleanUp t (some .cancelled)
  | .discarding => p.cleanUp t (some .cancelled)
  | .removing _ => p.conclude t (some .cancelled)
  | .ended _ => p

/-- The turn of a task for which a call went wrong. -/
def yieldToError (p : Pipeline) (t : Task) (e : PackageError) : Pipeline :=
  let failed := some (GivingUp.failed e.message)
  match t.stage with
  | .creating => p.conclude t failed
  | .writing _ => p.cleanUp t failed
  | .packaging => p.cleanUp t failed
  | .settling => p.hand t .discard .discarding
  | .discarding => p.cleanUp t failed
  | .removing cause => p.conclude t (if e.isSystem then cause else failed)
  | _ => p

/-- The turn of a task for which everything went well. -/
def proceed (p : Pipeline) (t : Task) : Pipeline :=
  match t.stage with
  | .scheduled => p.enter t
  | .waiting => (p.takeSlot t).execute t
  | .creating => p.goOn t (p.setup.generate t.request).files
  | .writing rest => p.goOn t rest
  | .packaging => p.complete t
  | .settling => p.hand t .discard .discarding
  | .discarding => p.cleanUp t (some .cancelled)
  | .removing cause => p.conclude t cause
  | .ended _ => p

/-- A task runs until it waits again or ends. -/
def resume (p : Pipeline) (job : String) : Pipeline :=
  match p.task? job with
  | none => p
  | some t =>
    match t.signal with
    | none => p
    | some .cancelled => p.yieldToCancel t
    | some (.done (.error e)) => p.yieldToError t e
    | some (.done (.ok ())) => p.proceed t

/-- A task that ended leaves the table. One that was cancelled before its first turn has not yet
marked its job as failed. -/
def retire (p : Pipeline) (job : String) : Pipeline :=
  match p.task? job with
  | none => p
  | some t =>
    match t.stage with
    | .ended cancelled =>
      let p := { p with tasks := p.tasks.filter (·.job != job) }
      if cancelled then p.fail job cancelledMessage else p
    | _ => p

/-! ## Workers -/

/-- What a call does to the files: the tree and the staging area afterwards, and the result. -/
def perform (p : Pipeline) (c : WorkerCall) (area : StagingArea) :
    FileTree FileBody × StagingArea × Except PackageError Unit :=
  let plain (r : FileTree FileBody × Except FileError Unit) :
      FileTree FileBody × StagingArea × Except PackageError Unit :=
    (r.1, area, r.2.mapError .file)
  match c.work with
  | .create => plain (area.create p.tree)
  | .write path text =>
    match area.write p.tree path text with
    | (t, .ok (area, _)) => (t, area, .ok ())
    | (t, .error e) => (t, area, .error e)
  | .archive =>
    let (t, r) := p.setup.pack p.tree area.path (p.destination c.job)
    (t, area, r)
  | .discard => plain (p.tree.removeFile (p.destination c.job))
  | .remove => plain (area.remove p.tree)

/-- The task of a job waits for this call. -/
def Stage.awaits : Stage → Work → Bool
  | .creating, .create => true
  | .writing _, .write .. => true
  | .packaging, .archive => true
  | .settling, .archive => true
  | .discarding, .discard => true
  | .removing _, .remove => true
  | _, _ => false

/-- Tells the task that waits for a call its result. -/
def deliver (p : Pipeline) (c : WorkerCall) (result : Except PackageError Unit) : Pipeline :=
  match p.task? c.job with
  | none => p
  | some t =>
    if c.awaited && t.signal.isNone && Stage.awaits t.stage c.work then
      p.putTask { t with signal := some (.done result) }
    else p

/-- A worker is done with a call. -/
def finish (p : Pipeline) (call : Nat) : Pipeline :=
  match p.calls[call]? with
  | none => p
  | some c =>
    match p.areas.lookup c.job with
    | none => p
    | some area =>
      if c.begun then
        let (tree, area, result) := p.perform c area
        let p := { p with
          tree
          areas := putMember p.areas c.job area
          calls := p.calls.eraseIdx call }
        p.deliver c result
      else p

/-- A worker begins with a call. -/
def begin (p : Pipeline) (call : Nat) : Pipeline :=
  { p with calls := p.calls.modify call fun c => { c with begun := true } }

/-- A call is taken back. -/
def drop (p : Pipeline) (call : Nat) : Pipeline :=
  match p.calls[call]? with
  | some c => if c.begun || c.awaited then p else { p with calls := p.calls.eraseIdx call }
  | none => p

/-! ## Supervision -/

/-- The task of a job stands at a call that goes on being awaited when the task is cancelled. -/
def Stage.shields : Stage → Bool
  | .packaging => true
  | _ => false

/-- A task is cancelled: it can run again, and nobody waits for its calls. Only the writing of an
archive is waited for all the same. -/
def cancelTask (p : Pipeline) (t : Task) : Pipeline :=
  if t.isEnded then p
  else
    let calls := p.calls.map fun c =>
      if c.job == t.job && !Stage.shields t.stage then { c with awaited := false } else c
    let slots := p.slots.map fun s => s.leave t.job
    { p with calls, slots }.putTask { t with signal := some .cancelled }

/-- Cancels the job, if its task is not over. -/
def cancel (p : Pipeline) (job : String) : Pipeline :=
  match p.task? job with
  | none => p
  | some t => p.cancelTask t

/-- The job can be cancelled. -/
def isCancellable (p : Pipeline) (job : String) : Bool := (p.task? job).any (!·.isEnded)

/-- Cancels every job. -/
def shutdown (p : Pipeline) : Pipeline := (p.tasks.map (·.job)).foldl cancel p

/-! ## Submission -/

/-- The answer to a submission. -/
def submission (job : String) (r : Request) : SubmitResult :=
  if r.validTables.isEmpty then ⟨false, none, noTablesMessage⟩
  else ⟨true, some job, s!"Generation started for {r.validTables.length} table(s)."⟩

/-- Takes a request, if it has a valid table: a job is registered and its task scheduled. The name
of the job has to be new. -/
def submit (p : Pipeline) (job : String) (r : Request) : Pipeline :=
  if r.validTables.isEmpty || (p.registry.get? job).isSome then p
  else { p with
    registry := p.registry.create job
    tasks := p.tasks ++ [{ job, request := r }] }

/-! ## Histories -/

/-- What an event does. -/
def step (p : Pipeline) : Event → Pipeline
  | .submit job r => p.submit job r
  | .resume job => p.resume job
  | .retire job => p.retire job
  | .begin call => p.begin call
  | .finish call => p.finish call
  | .drop call => p.drop call
  | .cancel job => p.cancel job
  | .shutdown => p.shutdown

/-- The state after a history. -/
def run (p : Pipeline) (events : List Event) : Pipeline := events.foldl step p

end Pipeline

end EntityScaffold
