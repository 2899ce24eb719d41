import EntityScaffold.Jobs.Pipeline

/-!
# A schedule

One way for a pipeline to proceed: all tasks that can run have a turn each, then workers do all
calls, and so on in rounds. `Pipeline.waitFor` runs rounds until a job's task is over.

Every round is a history of events, so what holds of all histories holds of a pipeline that is run
in this way.
-/

namespace EntityScaffold.Pipeline

/-- The events of a turn of every task that can run or has ended. -/
def turnEvents (p : Pipeline) : List Event :=
  p.tasks.filterMap fun t =>
    if t.isEnded then some (.retire t.job) else if t.isReady then some (.resume t.job) else none

/-- Every task that can run has a turn. -/
def turn (p : Pipeline) : Pipeline := p.run p.turnEvents

/-- Workers do up to `n` of the calls that they may do, in the order in which those were given. -/
def workOff (may : WorkerCall → Bool) : Nat → Pipeline → Pipeline
  | 0, p => p
  | n + 1, p =>
    match p.calls.findIdx? may with
    | none => p
    | some i => workOff may n (p.run [.begin i, .finish i])

/-- Workers do all calls that they may do. -/
def work (may : WorkerCall → Bool) (p : Pipeline) : Pipeline := p.workOff may p.calls.length

/-- One round. -/
def round (may : WorkerCall → Bool) (p : Pipeline) : Pipeline := p.turn.work may

/-- Runs rounds until a condition holds, `n` at most. -/
def rounds (may : WorkerCall → Bool) (until? : Pipeline → Bool) : Nat → Pipeline → Pipeline
  | 0, p => p
  | n + 1, p => if until? p then p else rounds may until? n (p.round may)

/-- A number of rounds after which every task is over: a job takes a round for each file and a few
more for each of its stages. -/
def enoughRounds (p : Pipeline) : Nat :=
  totalOf (fun t => (p.setup.generate t.request).files.length + 12) p.tasks

/-- Runs rounds until a condition holds. -/
def runUntil (may : WorkerCall → Bool) (until? : Pipeline → Bool) (p : Pipeline) : Pipeline :=
  p.rounds may until? p.enoughRounds

/-- The task of a job is over and retired. -/
def isOver (job : String) (p : Pipeline) : Bool := (p.task? job).isNone

/-- Runs until the task of a job is over. -/
def waitFor (p : Pipeline) (job : String) : Pipeline := p.runUntil (fun _ => true) (isOver job)

/-- Cancels every job and runs until all tasks are over. -/
def shutdownAndWait (p : Pipeline) : Pipeline :=
  (p.run [.shutdown]).runUntil (fun _ => true) (·.tasks.isEmpty)

end EntityScaffold.Pipeline
