import EntityScaffold.Proofs.Jobs.Frames

/-!
# The life of a record

Anybody may ask anything of a registry: for a new job, for a move of a job, known or unknown, to any
state, and for a record. This module is about all histories of such calls.

* `JobStatus.Moves`: the graph of the states.
* `RegistryCall`, `Registry.perform`, `Registry.serve`: a call, its answer, and a history of calls.
* `Job.DevelopsInto`: what may become of a record.
* `Registry.WellKept`: the records are those of the jobs that were made, in their order.

Results:
* `Registry.transition_cases`: everything that the request for a move can come to.
* `Registry.wellKept_serve`: in every history there is one record for each job that was made.
* `Registry.developsInto_serve`: records only ever move forward.
* `Registry.records_kept`: all of this, and which moves succeed.
-/

namespace EntityScaffold

namespace JobStatus

/-- The moves that the graph has. -/
inductive Moves : JobStatus → JobStatus → Prop
  | start : Moves .queued .processing
  | giveUp : Moves .queued .error
  | complete : Moves .processing .completed
  | fail : Moves .processing .error

theorem mayBecome_iff (source target : JobStatus) :
    source.mayBecome target = true ↔ Moves source target := by
  constructor
  · intro h
    unfold mayBecome at h
    split at h
    · exact .start
    · exact .giveUp
    · exact .complete
    · exact .fail
    · cases h
  · rintro (_ | _ | _ | _) <;> rfl

theorem Moves.not_isTerminal {source target : JobStatus} (h : Moves source target) :
    ¬ source.isTerminal = true := by
  cases h <;> decide

theorem Moves.ne_notFound {source target : JobStatus} (h : Moves source target) :
    target ≠ .notFound := by
  cases h <;> decide

end JobStatus

/-- What may become of a record: its state moves along the graph, and a terminal record stays. -/
structure Job.DevelopsInto (old new : Job) : Prop where
  id : new.id = old.id
  moves : Relation.ReflTransGen JobStatus.Moves old.status new.status
  terminal : old.status.isTerminal = true → new = old

namespace Job.DevelopsInto

theorem refl (job : Job) : job.DevelopsInto job := ⟨rfl, .refl, fun _ => rfl⟩

theorem trans {a b c : Job} (h : a.DevelopsInto b) (h' : b.DevelopsInto c) : a.DevelopsInto c := by
  refine ⟨h'.id.trans h.id, h.moves.trans h'.moves, fun hover => ?_⟩
  have hb := h.terminal hover
  exact (h'.terminal (hb ▸ hover)).trans hb

theorem of_moves {job : Job} {target : JobStatus} (h : JobStatus.Moves job.status target)
    (m : String) (downloadName : Option String) :
    job.DevelopsInto ⟨job.id, target, m, downloadName⟩ :=
  ⟨rfl, .single h, fun hover => absurd hover h.not_isTerminal⟩

end Job.DevelopsInto

/-! ## Calls -/

/-- What can be asked of a registry. A job is made under the name that was drawn for it. -/
inductive RegistryCall where
  | create (id : String)
  | transition (id : String) (target : JobStatus) (message : String) (downloadName : Option String)
  | get (id : String)

/-- The name of the job that a call makes. -/
def RegistryCall.created? : RegistryCall → Option String
  | .create id => some id
  | _ => none

/-- The names of the jobs that a history makes. -/
def created (calls : List RegistryCall) : List String := calls.filterMap RegistryCall.created?

namespace Registry

/-- The registry after a move was asked for, and the answer. A refused move has no registry of its
own. -/
def answer (r : Registry) :
    Except JobError (Registry × Job) → Registry × Except JobError (Option Job)
  | .ok (r', job) => (r', .ok (some job))
  | .error e => (r, .error e)

/-- The registry after a call, and the answer: a record, none, or a refusal. -/
def perform (r : Registry) : RegistryCall → Registry × Except JobError (Option Job)
  | .create id => (r.create id, .ok (some { id, message := queuedMessage }))
  | .transition id target m downloadName => r.answer (r.transition id target m downloadName)
  | .get id => (r, .ok (r.get? id))

/-- The registry after a history of calls. -/
def serve (r : Registry) (calls : List RegistryCall) : Registry :=
  calls.foldl (fun r call => (r.perform call).1) r

variable {r : Registry} {id : String} {job : Job}

/-! ## Moves -/

/-- **Everything that the request for a move can come to**: the job is unknown, it is moved, or the
graph has no such move. -/
theorem transition_cases (r : Registry) (id : String) (target : JobStatus) (m : String)
    (downloadName : Option String) :
    (r.get? id = none ∧ r.transition id target m downloadName = .error (.notFound id)) ∨
      ∃ old, r.get? id = some old ∧
        ((JobStatus.Moves old.status target ∧ r.transition id target m downloadName =
            .ok (r.replace ⟨id, target, m, downloadName⟩, ⟨id, target, m, downloadName⟩)) ∨
          (¬ JobStatus.Moves old.status target ∧ r.transition id target m downloadName =
            .error (.badMove id old.status target))) := by
  unfold transition
  cases hold : r.get? id with
  | none => exact .inl ⟨rfl, rfl⟩
  | some old =>
    refine .inr ⟨old, rfl, ?_⟩
    simp only [id_of_get? hold, ← JobStatus.mayBecome_iff]
    by_cases hmay : old.status.mayBecome target = true
    · exact .inl ⟨hmay, by rw [if_pos hmay]⟩
    · exact .inr ⟨hmay, by rw [if_neg hmay]⟩

theorem transition_eq_ok_iff (r : Registry) (id : String) (target : JobStatus) (m : String)
    (downloadName : Option String) :
    (∃ moved, r.transition id target m downloadName = .ok moved) ↔
      ∃ old, r.get? id = some old ∧ JobStatus.Moves old.status target := by
  rcases transition_cases r id target m downloadName with
    ⟨hnone, hresult⟩ | ⟨old, hold, ⟨hmoves, hresult⟩ | ⟨hnot, hresult⟩⟩ <;> rw [hresult]
  · simp [hnone]
  · simp [hold, hmoves]
  · simp [hold, hnot]

/-- Replacing a record leaves those before and after it alone. -/
theorem jobs_replace (hnodup : (r.jobs.map Job.id).Nodup) {old : Job} (hold : old ∈ r.jobs)
    (job : Job) (hid : old.id = job.id) :
    ∃ before after, r.jobs = before ++ old :: after ∧ (r.replace job).jobs =
      before ++ job :: after := by
  obtain ⟨before, after, hjobs, hreplaced, -⟩ := update_of_mem hnodup hold fun _ => job
  rw [hid] at hreplaced
  exact ⟨before, after, hjobs, hreplaced⟩

/-- A move that succeeds replaces the record of its job by the one that it answers. -/
theorem jobs_of_transition (hnodup : (r.jobs.map Job.id).Nodup) {target : JobStatus} {m : String}
    {downloadName : Option String} {r' : Registry}
    (h : r.transition id target m downloadName = .ok (r', job)) :
    job = ⟨id, target, m, downloadName⟩ ∧ ∃ before old after, old.id = id ∧
      r.jobs = before ++ old :: after ∧ r'.jobs = before ++ job :: after := by
  rcases transition_cases r id target m downloadName with
    ⟨-, hresult⟩ | ⟨old, hold, ⟨-, hresult⟩ | ⟨-, hresult⟩⟩ <;> rw [hresult] at h
  · cases h
  · cases h
    have hid : old.id = id := id_of_get? hold
    obtain ⟨before, after, hjobs, hjobs'⟩ :=
      jobs_replace hnodup (List.mem_of_find?_eq_some hold) ⟨id, target, m, downloadName⟩ hid
    exact ⟨rfl, before, old, after, hid, hjobs, hjobs'⟩
  · cases h

/-! ## One call -/

/-- A call of which the answer is a refusal leaves the registry as it is. -/
theorem perform_of_error {call : RegistryCall} {e : JobError}
    (h : (r.perform call).2 = .error e) : (r.perform call).1 = r := by
  cases call with
  | create id => cases h
  | get id => rfl
  | transition id target m downloadName =>
    show (r.answer _).1 = r
    change (r.answer _).2 = _ at h
    cases hresult : r.transition id target m downloadName with
    | error e => rfl
    | ok moved =>
      rw [hresult] at h
      cases h

/-- Only a move is refused, for a job that is unknown or for its state. -/
theorem refusal_cases {call : RegistryCall} {e : JobError} (h : (r.perform call).2 = .error e) :
    ∃ id target m downloadName, call = .transition id target m downloadName ∧
      ((r.get? id = none ∧ e = .notFound id) ∨
        ∃ old, r.get? id = some old ∧ e = .badMove id old.status target) := by
  cases call with
  | create id => cases h
  | get id => cases h
  | transition id target m downloadName =>
    refine ⟨id, target, m, downloadName, rfl, ?_⟩
    change (r.answer _).2 = _ at h
    rcases transition_cases r id target m downloadName with
      ⟨hnone, hresult⟩ | ⟨old, hold, ⟨-, hresult⟩ | ⟨-, hresult⟩⟩ <;> rw [hresult] at h
    · cases h
      exact .inl ⟨hnone, rfl⟩
    · cases h
    · cases h
      exact .inr ⟨old, hold, rfl⟩

/-- A call registers a job, replaces a record by one that it may become, or changes nothing. -/
theorem perform_cases (r : Registry) (call : RegistryCall) :
    (∃ id, call = .create id ∧ (r.perform call).1 = r.create id) ∨
      call.created? = none ∧ ((r.perform call).1 = r ∨
        ∃ old new, r.get? new.id = some old ∧ old.DevelopsInto new ∧ new.status ≠ .notFound ∧
          (r.perform call).1 = r.replace new) := by
  cases call with
  | create id => exact .inl ⟨id, rfl, rfl⟩
  | get id => exact .inr ⟨rfl, .inl rfl⟩
  | transition id target m downloadName =>
    refine .inr ⟨rfl, ?_⟩
    show (r.answer _).1 = r ∨ ∃ old new, _ ∧ _ ∧ _ ∧ (r.answer _).1 = _
    rcases transition_cases r id target m downloadName with
      ⟨-, hresult⟩ | ⟨old, hold, ⟨hmoves, hresult⟩ | ⟨-, hresult⟩⟩ <;> rw [hresult]
    · exact .inl rfl
    · refine .inr ⟨old, ⟨id, target, m, downloadName⟩, hold, ?_, hmoves.ne_notFound, rfl⟩
      have hid : old.id = id := id_of_get? hold
      exact hid ▸ .of_moves hmoves m downloadName
    · exact .inl rfl

/-- The records are those of the jobs with these names, and none says that it is not there. -/
structure WellKept (r : Registry) (ids : List String) : Prop where
  ids : r.jobs.map Job.id = ids
  found : ∀ job ∈ r.jobs, job.status ≠ .notFound

theorem wellKept_perform {ids : List String} (h : r.WellKept ids) (call : RegistryCall) :
    (r.perform call).1.WellKept (ids ++ call.created?.toList) := by
  rcases perform_cases r call with ⟨id, rfl, hr⟩ | ⟨hcreated, hr | ⟨old, new, -, -, hfound, hr⟩⟩
  · rw [hr]
    refine ⟨by simp [create, h.ids, RegistryCall.created?], fun job hjob => ?_⟩
    rcases List.mem_append.mp hjob with hjob | hjob
    · exact h.found job hjob
    · cases List.mem_singleton.mp hjob
      nofun
  · rw [hr, hcreated]
    simpa using h
  · rw [hr, hcreated]
    refine ⟨by simp [ids_replace, h.ids], fun job hjob => ?_⟩
    obtain ⟨j, hj, rfl⟩ := List.mem_map.mp hjob
    split_ifs
    · exact hfound
    · exact h.found j hj

/-- No call loses a record, and none makes it other than it may become. -/
theorem developsInto_perform (h : r.get? id = some job) (call : RegistryCall) :
    ∃ new, (r.perform call).1.get? id = some new ∧ job.DevelopsInto new := by
  rcases perform_cases r call with ⟨i, -, hr⟩ | ⟨-, hr | ⟨old, new, hold, hdevelops, -, hr⟩⟩
  · rw [hr, get?_create, h]
    exact ⟨job, rfl, .refl job⟩
  · rw [hr]
    exact ⟨job, h, .refl job⟩
  · rw [hr, get?_replace]
    split_ifs with hid
    · subst hid
      rw [h, Option.some.injEq] at hold
      subst hold
      exact ⟨new, by rw [h]; rfl, hdevelops⟩
    · exact ⟨job, h, .refl job⟩

/-! ## Histories -/

theorem created_cons (call : RegistryCall) (calls : List RegistryCall) :
    created (call :: calls) = call.created?.toList ++ created calls := by
  unfold created
  cases h : call.created? <;> simp [h]

/-- **In every history there is one record for each job that was made.** -/
theorem wellKept_serve {ids : List String} (h : r.WellKept ids) (calls : List RegistryCall) :
    (r.serve calls).WellKept (ids ++ created calls) := by
  induction calls generalizing r ids with
  | nil =>
    rw [show created [] = [] from rfl, List.append_nil]
    exact h
  | cons call calls ih =>
    rw [created_cons, ← List.append_assoc]
    exact ih (wellKept_perform h call)

/-- **Records only ever move forward**, and none is lost. -/
theorem developsInto_serve (h : r.get? id = some job) (calls : List RegistryCall) :
    ∃ new, (r.serve calls).get? id = some new ∧ job.DevelopsInto new := by
  induction calls generalizing r job with
  | nil => exact ⟨job, h, .refl job⟩
  | cons call calls ih =>
    obtain ⟨next, hnext, hdevelops⟩ := developsInto_perform h call
    obtain ⟨new, hnew, hdevelops'⟩ := ih hnext
    exact ⟨new, hnew, hdevelops.trans hdevelops'⟩

/-- A job has a record if its name is among those of the records. -/
theorem mem_ids_iff (r : Registry) (id : String) :
    id ∈ r.jobs.map Job.id ↔ ∃ job, r.get? id = some job := by
  constructor
  · intro h
    obtain ⟨job, hjob, rfl⟩ := List.mem_map.mp h
    refine Option.isSome_iff_exists.mp ?_
    unfold get?
    rw [List.find?_isSome]
    exact ⟨job, hjob, beq_self_eq_true job.id⟩
  · rintro ⟨job, hjob⟩
    exact List.mem_map.mpr ⟨job, List.mem_of_find?_eq_some hjob, id_of_get? hjob⟩

/-- A record is found by its name, if no other has that name. -/
theorem get?_of_mem (hnodup : (r.jobs.map Job.id).Nodup) (h : job ∈ r.jobs) :
    r.get? job.id = some job := by
  obtain ⟨found, hfound⟩ := (mem_ids_iff r job.id).mp (List.mem_map_of_mem h)
  have hsame := List.inj_on_of_nodup_map hnodup (List.mem_of_find?_eq_some hfound) h
    (id_of_get? hfound)
  rw [hfound, hsame]

theorem status_of_get? (h : r.get? id = some job) :
    r.status id = ⟨job.status, job.message, job.downloadName⟩ := by
  unfold status
  rw [h]

/-- **The registry keeps its records, whatever is asked of it.** Of every history with fresh names,
split at any point into what comes `before` it and what comes `after` it:

1. a move succeeds exactly when the job was made and the graph has the move;
2. a refusal says why, and changes nothing;
3. a move that succeeds replaces the record of its job by the one that it answers, and no other;
4. there is one record for each job that was made, in their order;
5. no record says that there is none;
6. each record is still there after the rest of the history, in a state that the graph leads to from
   the one it had, and exactly as it was if that state was terminal. -/
theorem records_kept {front back : List RegistryCall} (hfresh : (created (front ++ back)).Nodup) :
    let r : Registry := serve {} front
    (∀ id target m downloadName, (∃ moved, r.transition id target m downloadName = .ok moved) ↔
      id ∈ created front ∧ JobStatus.Moves (r.status id).status target) ∧
    (∀ call e, (r.perform call).2 = .error e → (r.perform call).1 = r ∧
      ∃ id target m downloadName, call = .transition id target m downloadName ∧
        if id ∈ created front then e = .badMove id (r.status id).status target
        else e = .notFound id) ∧
    (∀ id target m downloadName r' job, r.transition id target m downloadName = .ok (r', job) →
      job = ⟨id, target, m, downloadName⟩ ∧ ∃ before old after, old.id = id ∧
        r.jobs = before ++ old :: after ∧ r'.jobs = before ++ job :: after) ∧
    r.jobs.map Job.id = created front ∧
    (∀ job ∈ r.jobs, job.status ≠ .notFound) ∧
    ∀ job ∈ r.jobs, r.get? job.id = some job ∧
      ∃ new, (r.serve back).get? job.id = some new ∧ job.DevelopsInto new := by
  intro r
  have hkept : r.WellKept (created front) := by
    have hempty : ({} : Registry).WellKept [] := ⟨rfl, fun job hjob => by cases hjob⟩
    exact wellKept_serve hempty front
  have hnodup : (r.jobs.map Job.id).Nodup := by
    rw [hkept.ids]
    unfold created at hfresh ⊢
    rw [List.filterMap_append] at hfresh
    exact hfresh.of_append_left
  refine ⟨fun id target m downloadName => ?_, fun call e he => ⟨perform_of_error he, ?_⟩,
    fun id target m downloadName r' job hmoved => jobs_of_transition hnodup hmoved, hkept.ids,
    hkept.found, fun job hjob => ?_⟩
  · rw [transition_eq_ok_iff, ← hkept.ids, mem_ids_iff]
    constructor
    · rintro ⟨old, hold, hmoves⟩
      exact ⟨⟨old, hold⟩, by rwa [status_of_get? hold]⟩
    · rintro ⟨⟨old, hold⟩, hmoves⟩
      rw [status_of_get? hold] at hmoves
      exact ⟨old, hold, hmoves⟩
  · obtain ⟨id, target, m, downloadName, hcall, hcause⟩ := refusal_cases he
    refine ⟨id, target, m, downloadName, hcall, ?_⟩
    rw [← hkept.ids]
    have hmem := mem_ids_iff r id
    rcases hcause with ⟨hnone, hcause⟩ | ⟨old, hold, hcause⟩
    · rw [if_neg (by simp [hmem, hnone]), hcause]
    · rw [if_pos (hmem.mpr ⟨old, hold⟩), status_of_get? hold, hcause]
  · have hget := get?_of_mem hnodup hjob
    exact ⟨hget, developsInto_serve hget back⟩

/-- A completed job can be moved nowhere, and calls that try to leave its record alone. -/
theorem records_kept_completed :
    let front : List RegistryCall := [.create "1", .transition "1" .processing "Working." none,
      .create "2", .transition "1" .completed "Done." (some "1.zip")]
    let back : List RegistryCall := [.transition "1" .error "Too late." none,
      .transition "3" .error "Who?" none, .transition "2" .error "Given up." none, .get "1"]
    let done : Job := ⟨"1", .completed, "Done.", some "1.zip"⟩
    (created (front ++ back)).Nodup ∧
      (∀ target m downloadName,
        ¬ ∃ moved, (serve {} front).transition "1" target m downloadName = .ok moved) ∧
      ((serve {} front).serve back).get? "1" = some done := by
  intro front back done
  have hfresh : (created (front ++ back)).Nodup := by decide
  obtain ⟨hmoves, -, -, -, -, hdevelops⟩ := records_kept hfresh
  have hstatus : ((serve {} front).status "1").status = .completed := by decide
  have hmem : done ∈ (serve {} front).jobs := by decide
  refine ⟨hfresh, fun target m downloadName hmoved => ?_, ?_⟩
  · have hmove := ((hmoves "1" target m downloadName).mp hmoved).2
    rw [hstatus] at hmove
    cases hmove
  · obtain ⟨-, new, hnew, hdevelops⟩ := hdevelops done hmem
    exact hnew.trans (congrArg some (hdevelops.terminal rfl))

end Registry

end EntityScaffold
