/-!
# Slots

A pipeline may run only so many jobs at once. A job takes a slot before it starts and gives it back
at its end; jobs that find no slot free wait in line. A slot that is given back belongs to the first
in line at once: the job is called to it and comes when its turn has come. Until all called jobs
have come, whoever asks for a slot joins the line, so nobody can come in between.

Model of the semaphore `_slots` that `_run_job` enters.
-/

namespace EntityScaffold

/-- Free slots, the jobs that wait for one, and the jobs that were called to one and have not come
yet; first come first. -/
structure Slots where
  free : Nat
  line : List String := []
  called : List String := []
  deriving DecidableEq

namespace Slots

/-- Asks for a slot: `true` if the job has one now, and otherwise it waits in line. -/
def acquire (s : Slots) (job : String) : Slots × Bool :=
  if 0 < s.free ∧ s.line = [] ∧ s.called = [] then ({ s with free := s.free - 1 }, true)
  else ({ s with line := s.line ++ [job] }, false)

/-- Calls the first in line, if a slot is free and somebody waits. -/
def callNext (s : Slots) : Slots × Option String :=
  match s.line with
  | [] => (s, none)
  | job :: line =>
    if s.free = 0 then (s, none)
    else ({ free := s.free - 1, line, called := s.called ++ [job] }, some job)

/-- Gives a slot back: the job that is called to it now, if one was waiting. -/
def release (s : Slots) : Slots × Option String := callNext { s with free := s.free + 1 }

/-- A job that was called comes, to work or to give up. -/
def come (s : Slots) (job : String) : Slots := { s with called := s.called.filter (· ≠ job) }

/-- A job waits no longer. -/
def leave (s : Slots) (job : String) : Slots := { s with line := s.line.filter (· ≠ job) }

end Slots

end EntityScaffold
