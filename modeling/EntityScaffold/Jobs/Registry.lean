import EntityScaffold.Intake.Record

/-!
# The registry of jobs

Every job has one record, which moves through the states

    Queued → Processing → Completed
       └──────────┴─────→ Error

and stays for good once it is completed or has failed. `NotFound` is the answer for a job that
was never registered; no record holds it.

Model of `JobRegistry`, `JobStatus`, `GenerationJob` and `get_status`, without times.
-/

namespace EntityScaffold

/-- The state of a job. -/
inductive JobStatus where
  | queued
  | processing
  | completed
  | error
  | notFound
  deriving DecidableEq

namespace JobStatus

/-- Every state, in the order in which messages list them. -/
def all : List JobStatus := [.queued, .processing, .completed, .error, .notFound]

/-- The word for a state. -/
def word : JobStatus → String
  | .queued => "Queued"
  | .processing => "Processing"
  | .completed => "Completed"
  | .error => "Error"
  | .notFound => "NotFound"

/-- The state with a given word. -/
def ofWord? (s : String) : Option JobStatus := all.find? fun t => t.word == s

/-- A job in this state never changes again. -/
def isTerminal : JobStatus → Bool
  | .completed => true
  | .error => true
  | _ => false

/-- A job may move from the first state to the second. -/
def mayBecome : JobStatus → JobStatus → Bool
  | .queued, .processing => true
  | .queued, .error => true
  | .processing, .completed => true
  | .processing, .error => true
  | _, _ => false

end JobStatus

/-- The record of a job. -/
structure Job where
  id : String
  status : JobStatus := .queued
  message : String
  downloadName : Option String := none
  deriving DecidableEq

/-- The message of a job that waits for its turn. -/
def queuedMessage : String := "Job queued; waiting to start."

/-- Why a job is not moved. -/
inductive JobError where
  | notFound (id : String)
  | badMove (id : String) (source target : JobStatus)
  deriving DecidableEq

/-- The wording of a refusal. -/
def JobError.message : JobError → String
  | .notFound id => s!"Job not found: {id}"
  | .badMove id source target => s!"Job {id}: cannot move from {source.word} to {target.word}."

/-- The records of all jobs in the order in which they were registered. -/
structure Registry where
  jobs : List Job := []
  deriving DecidableEq

namespace Registry

/-- The record of a job. -/
def get? (r : Registry) (id : String) : Option Job := r.jobs.find? fun j => j.id == id

/-- Registers a queued job under a fresh name. -/
def create (r : Registry) (id : String) : Registry :=
  ⟨r.jobs ++ [{ id := id, message := queuedMessage }]⟩

/-- The registry with another record for a job. -/
def replace (r : Registry) (job : Job) : Registry :=
  ⟨r.jobs.map fun j => if j.id == job.id then job else j⟩

/-- Moves a job to a state with a message and perhaps the name of its package. -/
def transition (r : Registry) (id : String) (target : JobStatus) (message : String)
    (downloadName : Option String := none) : Except JobError (Registry × Job) :=
  match r.get? id with
  | none => .error (.notFound id)
  | some job =>
    if job.status.mayBecome target then
      let job : Job := ⟨job.id, target, message, downloadName⟩
      .ok (r.replace job, job)
    else .error (.badMove id job.status target)

/-- The job is registered and will never change again. -/
def isTerminal (r : Registry) (id : String) : Bool :=
  match r.get? id with
  | some job => job.status.isTerminal
  | none => false

def size (r : Registry) : Nat := r.jobs.length

end Registry

/-- The answer to a submission. -/
structure SubmitResult where
  success : Bool := false
  jobId : Option String := none
  message : String := ""

/-- The fields of a submission's answer. -/
def SubmitResult.shape : RecordShape SubmitResult where
  title := "SubmitResult"
  initial := {}
  unknownKeys := .ignored
  fields := [
    (Field.of "success" .bool (·.success) fun v s => { s with success := v }).mandatory,
    .of "job_id" (.optional .text) (·.jobId) fun v s => { s with jobId := v },
    .of "message" .text (·.message) fun v s => { s with message := v }]

/-- The answer to a question for the state of a job. -/
structure StatusResult where
  status : JobStatus := .notFound
  message : String := ""
  downloadName : Option String := none
  deriving DecidableEq

/-- The fields of a status answer. -/
def StatusResult.shape : RecordShape StatusResult where
  title := "JobStatusResult"
  initial := {}
  unknownKeys := .ignored
  fields := [
    (Field.of "status" (.oneOf JobStatus.all JobStatus.word JobStatus.ofWord?) (·.status)
      fun v s => { s with status := v }).mandatory,
    .of "message" .text (·.message) fun v s => { s with message := v },
    .of "download_name" (.optional .text) (·.downloadName)
      fun v s => { s with downloadName := v }]

/-- The state of a job as it is reported. -/
def Registry.status (r : Registry) (id : String) : StatusResult :=
  match r.get? id with
  | some job => ⟨job.status, job.message, job.downloadName⟩
  | none => ⟨.notFound, "Job not found.", none⟩

end EntityScaffold
