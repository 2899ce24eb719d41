import EntityScaffold.Proofs.Jobs.Events

/-!
# Every job comes to an end

A job that is not over has a task in the table, and a job whose task has left the table is over for
good, whichever way it ended: by its own end, by any failure, or by a cancellation at any time, be
it before the first turn, in line for a slot or after the completion.

Results:
* `Pipeline.exists_task_of_pending`: a job that is not over has its task.
* `Pipeline.settled_run`: the record of a job without a task never changes again.
* `Pipeline.supervised`: all of this of every history, with one record for each accepted request
  and no refused move.
-/

namespace EntityScaffold.Pipeline

open Standing

variable {p : Pipeline} {job : String} {r : Job}

/-- A job that is not over has its task. -/
theorem exists_task_of_pending (h : p.Consistent) (hr : p.registry.get? job = some r)
    (hpending : ¬ r.status.isTerminal = true) : ∃ t, p.task? job = some t := by
  cases ht : p.task? job with
  | some t => exact ⟨t, rfl⟩
  | none =>
    have hnone : (p.standing job).task = none := congrArg (Option.map Task.bare) ht
    exact absurd ((h.sound job).settled r hnone hr) hpending

theorem settled_step (h : p.Consistent) (hr : p.registry.get? job = some r)
    (ht : p.task? job = none) (e : Event) :
    (p.step e).registry.get? job = some r ∧ (p.step e).task? job = none := by
  have hnone : (p.standing job).task = none := congrArg (Option.map Task.bare) ht
  have hstep := standing_step_any h e job
  have hafter : ((p.step e).standing job).record = some r ∧
      ((p.step e).standing job).task = none := by
    split_ifs at hstep
    · rw [hstep, settled_cancel hnone]
      exact ⟨hr, hnone⟩
    · exact settled_reaches hr hnone hstep
  exact ⟨hafter.1, Option.map_eq_none_iff.mp hafter.2⟩

/-- **The record of a job without a task never changes again.** -/
theorem settled_run (h : p.Consistent) (hr : p.registry.get? job = some r)
    (ht : p.task? job = none) (events : List Event) :
    (p.run events).registry.get? job = some r ∧ (p.run events).task? job = none := by
  induction events generalizing p with
  | nil => exact ⟨hr, ht⟩
  | cons e events ih =>
    obtain ⟨hr', ht'⟩ := settled_step h hr ht e
    exact ih (consistent_step h e) hr' ht'

/-- A task that is over leaves the table when its end is taken note of. -/
theorem task?_retire {t : Task} (ht : p.task? job = some t) (hended : t.isEnded = true) :
    (p.retire job).task? job = none := by
  have hfilter := task?_retired p job job
  rw [if_pos rfl] at hfilter
  unfold Task.isEnded at hended
  unfold retire
  simp only [ht]
  split
  · rename_i cancelled hstage
    split_ifs
    · rw [task?_fail]
      exact hfilter
    · exact hfilter
  · rename_i hstage
    split at hended
    · rename_i cancelled h
      exact absurd h (hstage cancelled)
    · cases hended

theorem isTerminal_iff (status : JobStatus) :
    status.isTerminal = true ↔ status = .completed ∨ status = .error := by
  cases status <;> decide

/-- **Every job is supervised until it is over.** In every state that a history reaches: a job that
is queued or processing has its task in the table; a task that is over leaves the table; a job that
is registered and has no task is completed or failed and remains as it is; there is one record for
each accepted request; a request without valid tables changes nothing; and the registry has refused
no move. -/
theorem supervised (setup : PipelineSetup) (tree : FileTree FileBody) {events : List Event}
    (hfresh : ((accepted events).map Prod.fst).Nodup) :
    let p := (start setup tree).run events
    (∀ job r, p.registry.get? job = some r → r.status = .queued ∨ r.status = .processing →
      ∃ t, p.task? job = some t) ∧
    (∀ job t, p.task? job = some t → t.isEnded = true → (p.retire job).task? job = none) ∧
    (∀ job r, p.registry.get? job = some r → p.task? job = none →
      (r.status = .completed ∨ r.status = .error) ∧
        ∀ more, (p.run more).registry.get? job = some r ∧ (p.run more).task? job = none) ∧
    p.registry.jobs.map Job.id = (accepted events).map Prod.fst ∧
    (∀ job r, r.validTables = [] → p.submit job r = p) ∧
    p.refusals = [] := by
  intro p
  have h : p.Consistent := consistent_history setup tree events
  refine ⟨fun job r hr hstatus => ?_, fun job t ht hended => task?_retire ht hended,
    fun job r hr ht => ⟨?_, fun more => settled_run h hr ht more⟩,
    ids_eq_accepted setup tree hfresh, fun job r hvalid => submit_of_refused (.inl hvalid),
    refusals_run (consistent_start setup tree) events⟩
  · refine exists_task_of_pending h hr ?_
    rw [isTerminal_iff]
    rcases hstatus with hstatus | hstatus <;> simp [hstatus]
  · have hnone : (p.standing job).task = none := congrArg (Option.map Task.bare) ht
    exact (isTerminal_iff r.status).mp ((h.sound job).settled r hnone hr)

/-- A job that was cancelled before its first turn has failed for good. -/
theorem supervised_cancelled_early :
    let setup : PipelineSetup := { stagingRoot := ["", "tmp"], packageDirectory := ["", "out"] }
    let request : Request := { tables := [⟨"order", [{ name := "id" }], none⟩] }
    let p := (start setup {}).run [.submit "1" request, .cancel "1", .resume "1", .retire "1"]
    p.registry.jobs = [⟨"1", .error, cancelledMessage, none⟩] ∧
      ∀ more, (p.run more).registry.get? "1" = some ⟨"1", .error, cancelledMessage, none⟩ := by
  intro setup request p
  have hfresh : ((accepted [.submit "1" request, .cancel "1", .resume "1", .retire "1"]).map
      Prod.fst).Nodup := by decide
  have hjobs : p.registry.jobs = [⟨"1", .error, cancelledMessage, none⟩] := by decide
  obtain ⟨-, -, hover, -⟩ := supervised setup {} hfresh
  refine ⟨hjobs, fun more => ((hover "1" _ ?_ ?_).2 more).1⟩
  · decide
  · decide

end EntityScaffold.Pipeline
