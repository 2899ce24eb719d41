import EntityScaffold.Compile.Report
import EntityScaffold.Package.Staging

/-!
# Tasks

Every job is worked on by one task. A task runs in short turns and in between waits: for a slot, or
for a worker that handles files. When it is cancelled it stops waiting at once, but a worker that
has begun a call carries on until that is done.

The stages of a task:

    scheduled → waiting → creating → writing → packaging → removing → ended
                             │          │          │           ↑
                             ↓          └──────────┼───────────┤
                           ended       settling ←──┘           │
                                           └──→ discarding ────┘

A task that is cancelled while its archive is written waits for the writer (`settling`) and removes
the archive (`discarding`). Whatever happens after the staging directory was made, the task removes
it (`removing`) before it ends.

Model of the coroutine `_run_job` with `_execute` and `_write_package`, cut where it waits.
-/

namespace EntityScaffold

/-- Why a task gives its job up. -/
inductive GivingUp where
  | cancelled
  | failed (message : String)
  deriving DecidableEq

/-- Where a task stands. -/
inductive Stage where
  /-- The task has not run yet. -/
  | scheduled
  /-- The task waits for a slot. -/
  | waiting
  | creating
  /-- The staging of one file is under way and these come after it. -/
  | writing (rest : List (String × String))
  | packaging
  | settling
  | discarding
  /-- The staging directory is removed; afterwards the job is given up, if there is a cause. -/
  | removing (cause : Option GivingUp)
  /-- The task is over. It was cancelled, or it came to its own end. -/
  | ended (cancelled : Bool)
  deriving DecidableEq

/-- What lets a task run again. -/
inductive Signal where
  /-- What it waited for is done, with this result. -/
  | done (result : Except PackageError Unit)
  | cancelled

/-- The task of a job. A task with a signal can run; one without waits. -/
structure Task where
  job : String
  request : Request
  stage : Stage := .scheduled
  signal : Option Signal := some (.done (.ok ()))
  holdsSlot : Bool := false

namespace Task

/-- The task is over. -/
def isEnded (t : Task) : Bool :=
  match t.stage with
  | .ended _ => true
  | _ => false

/-- The task can run. -/
def isReady (t : Task) : Bool := !t.isEnded && t.signal.isSome

end Task

/-- What a worker does for a job. -/
inductive Work where
  /-- Makes the staging directory. -/
  | create
  | write (path text : String)
  /-- Packages the staging directory. -/
  | archive
  /-- Removes the package. -/
  | discard
  /-- Removes the staging directory. -/
  | remove
  deriving DecidableEq

/-- A call that was given to the workers. -/
structure WorkerCall where
  job : String
  work : Work
  /-- A worker has begun with it. -/
  begun : Bool := false
  /-- The task of the job waits for its result. -/
  awaited : Bool := true
  deriving DecidableEq

end EntityScaffold
