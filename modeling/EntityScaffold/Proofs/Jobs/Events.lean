import EntityScaffold.Proofs.Jobs.Turns

/-!
# A pipeline, job by job

Whatever happens in a pipeline is, for each of its jobs, something that happens to that job
(`Standing.Happens`) or its cancellation. What holds of a job through all of these holds of it in
every state that a history reaches.

* `Pipeline.Consistent`: what belongs together does so for every job.
* `Event.cancels`, `Event.accepted?`: the events that cancel a job, and those that make one.

Results:
* `Pipeline.standing_step`: what an event is for one job.
* `Pipeline.consistent_step`: consistency is kept.
* `Pipeline.refusals_run`: the registry refuses no move.
* `Pipeline.standing_run_induction`: what holds of a job all along.
-/

namespace EntityScaffold

open Standing

namespace Pipeline

variable {p p' : Pipeline} {t : Task} {i j : String}

/-! ## Retirement and workers -/

section Workers

variable {taken : String → Request → Prop}

theorem task?_retired (p : Pipeline) (i j : String) :
    task? { p with tasks := p.tasks.filter (·.job != i) } j =
      if j = i then none else p.task? j := by
  unfold task?
  simp only [List.find?_filter]
  by_cases hj : j = i
  · subst hj
    simp
  · rw [if_neg hj]
    refine congrArg (fun q => List.find? q p.tasks) (funext fun u => ?_)
    by_cases hu : u.job = j
    · simp [hu, hj]
    · simp [hu]

theorem steps_retire (hq : p.Queueing) (hsound : ∀ j, Sound p.setup (p.standing j)) (i : String) :
    Steps taken p (p.retire i) := by
  unfold retire
  cases ht : p.task? i with
  | none => exact .refl hq
  | some t =>
    simp only
    split
    · rename_i cancelled hstage
      have hi : i ∉ p.line := hq.not_mem ht (.inr (by rw [hstage]; nofun))
      have hu : (p.standing i).task = some t.bare := congrArg (Option.map Task.bare) ht
      obtain ⟨r, hr⟩ := (hsound i).exists_record hu
      have hgone : standing { p with tasks := p.tasks.filter (·.job != i) } i =
          { p.standing i with task := none } := by
        unfold standing
        rw [task?_retired, if_pos rfl]
        rfl
      have hframe : ∀ j ≠ i, standing { p with tasks := p.tasks.filter (·.job != i) } j =
          p.standing j := by
        intro j hj
        unfold standing
        rw [task?_retired, if_neg hj]
      have hconfined : Confined taken i p { p with tasks := p.tasks.filter (·.job != i) } :=
        (Confined.refl hq).trans_of_frame hi rfl rfl rfl rfl hframe
      have hown : Happens p.setup taken _ _ := .retired hu hstage
      cases cancelled with
      | false =>
        refine hconfined.steps ?_
        rw [hgone]
        exact hown
      | true =>
        have hr' : (standing { p with tasks := p.tasks.filter (·.job != i) } i).record = some r := by
          rw [hgone]
          exact hr
        have hstatus := ne_notFound_of_fits ((hsound i).fits t.bare r hu hr)
        refine (hconfined.fail hi hr' hstatus _).steps ?_
        rw [standing_fail_self hr' hstatus, hgone]
        exact hown
    · exact .refl hq

/-- A change of calls and files moves no task. -/
theorem steps_of_files (hq : p.Queueing) (tree : FileTree FileBody)
    (areas : List (String × StagingArea)) (calls : List WorkerCall)
    (hhappens : ∀ j, Relation.ReflTransGen (Happens p.setup taken) (p.standing j)
      (standing { p with tree, areas, calls } j)) :
    Steps taken p { p with tree, areas, calls } :=
  ⟨⟨rfl, rfl, rfl, hq.of_frame (List.Sublist.refl _) fun _ _ => rfl⟩, hhappens⟩

theorem calls_split {k : Nat} {c : WorkerCall} (h : p.calls[k]? = some c) :
    ∃ front back, p.calls = front ++ c :: back ∧ p.calls.eraseIdx k = front ++ back ∧
      ∀ f, p.calls.modify k f = front ++ f c :: back := by
  obtain ⟨hk, rfl⟩ := List.getElem?_eq_some_iff.mp h
  refine ⟨p.calls.take k, p.calls.drop (k + 1), ?_, ?_, fun f => ?_⟩
  · rw [List.getElem_cons_drop, List.take_append_drop]
  · exact List.eraseIdx_eq_take_drop_succ _ _
  · exact List.modify_eq_take_cons_drop hk

theorem filter_of_job {front back : List WorkerCall} {c : WorkerCall} (h : c.job = j) :
    (front ++ c :: back).filter (·.job == j) =
      front.filter (·.job == j) ++ c :: back.filter (·.job == j) := by
  simp [h]

theorem filter_of_job_ne {front back : List WorkerCall} {c : WorkerCall} (h : c.job ≠ j) :
    (front ++ c :: back).filter (·.job == j) = (front ++ back).filter (·.job == j) := by
  simp [h]

theorem steps_begin (hq : p.Queueing) (k : Nat) : Steps taken p (p.begin k) := by
  unfold begin
  refine steps_of_files hq p.tree p.areas _ fun j => ?_
  cases hk : p.calls[k]? with
  | none =>
    rw [List.modify_eq_self (List.getElem?_eq_none_iff.mp hk)]
  | some c =>
    obtain ⟨front, back, hcalls, -, hmodify⟩ := calls_split hk
    rw [hmodify]
    by_cases hj : c.job = j
    · have hown : (p.standing j).calls =
          front.filter (·.job == j) ++ c :: back.filter (·.job == j) := by
        rw [← filter_of_job hj, ← hcalls]
        rfl
      refine .single ?_
      have hbegun : Happens p.setup taken _ _ := .begun hown
      unfold standing at hbegun ⊢
      rwa [filter_of_job (c := { c with begun := true }) hj]
    · have hsame : standing { p with calls := front ++ { c with begun := true } :: back } j =
          p.standing j := by
        unfold standing
        rw [filter_of_job_ne (c := { c with begun := true }) hj, ← filter_of_job_ne hj, ← hcalls]
        rfl
      exact hsame ▸ .refl

theorem steps_drop (hq : p.Queueing) (k : Nat) : Steps taken p (p.drop k) := by
  unfold drop
  cases hk : p.calls[k]? with
  | none => exact .refl hq
  | some c =>
    simp only
    split_ifs with hheld
    · exact .refl hq
    · rw [Bool.or_eq_true, not_or, Bool.not_eq_true, Bool.not_eq_true] at hheld
      obtain ⟨front, back, hcalls, herase, -⟩ := calls_split hk
      refine steps_of_files hq p.tree p.areas _ fun j => ?_
      rw [herase]
      by_cases hj : c.job = j
      · have hown : (p.standing j).calls =
            front.filter (·.job == j) ++ c :: back.filter (·.job == j) := by
          rw [← filter_of_job hj, ← hcalls]
          rfl
        refine .single ?_
        have hdropped : Happens p.setup taken _ _ := .dropped hown hheld.1 hheld.2
        unfold standing at hdropped ⊢
        rwa [List.filter_append]
      · have hsame : standing { p with calls := front ++ back } j = p.standing j := by
          unfold standing
          rw [← filter_of_job_ne hj, ← hcalls]
          rfl
        exact hsame ▸ .refl

theorem standing_deliver_of_ne (c : WorkerCall) (result : Except PackageError Unit)
    (h : j ≠ c.job) : (p.deliver c result).standing j = p.standing j := by
  unfold deliver
  cases ht : p.task? c.job with
  | none => rfl
  | some t =>
    simp only
    split_ifs
    · have hjob := job_of_task? ht
      exact standing_putTask_of_ne (t := { t with signal := some (.done result) }) (hjob ▸ h)
    · rfl

theorem standing_deliver_self (p : Pipeline) (c : WorkerCall) (result : Except PackageError Unit) :
    (p.deliver c result).standing c.job = (p.standing c.job).deliver c result := by
  unfold deliver Standing.deliver
  cases ht : p.task? c.job with
  | none =>
    have hu : (p.standing c.job).task = none := congrArg (Option.map Task.bare) ht
    simp only [hu]
  | some t =>
    have hu : (p.standing c.job).task = some t.bare := congrArg (Option.map Task.bare) ht
    simp only [hu]
    by_cases hwaits :
        (c.awaited && t.signal.isNone && Pipeline.Stage.awaits t.stage c.work) = true
    · have hjob := job_of_task? ht
      rw [if_pos hwaits, if_pos (show (c.awaited && t.bare.signal.isNone &&
        Pipeline.Stage.awaits t.bare.stage c.work) = true from hwaits)]
      exact standing_putTask_self (t := { t with signal := some (.done result) }) hjob hu
    · rw [if_neg hwaits, if_neg (show ¬ (c.awaited && t.bare.signal.isNone &&
        Pipeline.Stage.awaits t.bare.stage c.work) = true from hwaits)]

/-- Nobody in line waits for a call. -/
theorem kept_deliver (hq : p.Queueing) (c : WorkerCall) (result : Except PackageError Unit) :
    Kept p (p.deliver c result) := by
  unfold deliver
  cases ht : p.task? c.job with
  | none => exact .refl hq
  | some t =>
    simp only
    split_ifs with hwaits
    · have hstage : t.stage ≠ .waiting := by
        intro hstage
        simp [hstage, Stage.awaits] at hwaits
      have hi : c.job ∉ p.line := hq.not_mem ht (.inr hstage)
      have hjob := job_of_task? ht
      have hrefl : Confined (fun _ _ => True) c.job p p := .refl hq
      exact (hrefl.putTask (t := { t with signal := some (.done result) }) hi hjob).toKept
    · exact .refl hq

theorem perform_eq (p : Pipeline) (c : WorkerCall) (a : StagingArea) :
    p.perform c a = effect p.setup p.tree c a := rfl

theorem steps_finish (hq : p.Queueing) (hsound : ∀ j, Sound p.setup (p.standing j))
    (htaken : ∀ c ∈ p.calls, ∃ r, taken c.job r) (k : Nat) : Steps taken p (p.finish k) := by
  unfold finish
  cases hk : p.calls[k]? with
  | none => exact .refl hq
  | some c =>
    cases ha : p.areas.lookup c.job with
    | none =>
      simp only [ha]
      exact .refl hq
    | some a =>
      obtain ⟨front, back, hcalls, herase, -⟩ := calls_split hk
      simp only [ha]
      split_ifs with hbegun
      · rw [perform_eq, herase]
        set e := effect p.setup p.tree c a
        set p' : Pipeline :=
          { p with tree := e.1, areas := putMember p.areas c.job e.2.1, calls := front ++ back }
        have hkept : Kept p p' :=
          ⟨rfl, rfl, rfl, hq.of_frame (List.Sublist.refl _) fun _ _ => rfl⟩
        refine ⟨hkept.trans (kept_deliver hkept.queueing c e.2.2), fun j => .single ?_⟩
        by_cases hj : c.job = j
        · subst hj
          have hown : (p.standing c.job).calls =
              front.filter (·.job == c.job) ++ c :: back.filter (·.job == c.job) := by
            rw [← filter_of_job rfl, ← hcalls]
            rfl
          have hp' : p'.standing c.job = { p.standing c.job with
              tree := e.1
              area := some e.2.1
              calls := front.filter (·.job == c.job) ++ back.filter (·.job == c.job) } := by
            simp [p', standing, lookup_putMember, task?]
          rw [standing_deliver_self, hp']
          exact .finished hown rfl hbegun ha
        · have hb : (j == c.job) = false := beq_false_of_ne (Ne.symm hj)
          have hp' : p'.standing j = { p.standing j with tree := e.1 } := by
            have hsame : p.calls.filter (·.job == j) = (front ++ back).filter (·.job == j) := by
              rw [hcalls, filter_of_job_ne hj]
            simp [p', standing, lookup_putMember, hb, hsame, task?]
          rw [standing_deliver_of_ne c _ (Ne.symm hj), hp']
          exact .elsewhere (htaken c (by simp [hcalls])) hj ((hsound c.job).area a ha)
      · exact .refl hq

end Workers

/-! ## Cancellation -/

/-- The calls of a task that is cancelled, and those of the others. -/
theorem filter_unawaited (calls : List WorkerCall) (i j : String) (shielded : Bool) :
    (calls.map fun c => if c.job == i && !shielded then { c with awaited := false } else c).filter
        (·.job == j) =
      if j = i then
        (calls.filter (·.job == j)).map fun c => if !shielded then { c with awaited := false } else c
      else calls.filter (·.job == j) := by
  induction calls with
  | nil => simp
  | cons c calls ih =>
    rw [List.map_cons, List.filter_cons, List.filter_cons, ih]
    by_cases hj : j = i
    · subst hj
      by_cases hc : c.job = j <;> cases shielded <;> simp [hc]
    · by_cases hc : c.job = j
      · simp [hj, hc]
      · by_cases hci : c.job = i <;> cases shielded <;> simp [hj, hc, hci, Ne.symm hj]

/-- A pipeline in which nobody waits for the calls of a task any more, unless they are shielded, and
the task is out of the line. -/
def withdraw (p : Pipeline) (t : Task) : Pipeline :=
  { p with
    calls := p.calls.map fun c =>
      if c.job == t.job && !Stage.shields t.stage then { c with awaited := false } else c
    slots := p.slots.map fun s => s.leave t.job }

theorem cancelTask_eq (p : Pipeline) (h : ¬ t.isEnded = true) :
    p.cancelTask t = (p.withdraw t).putTask { t with signal := some .cancelled } := by
  unfold cancelTask
  rw [if_neg h]
  rfl

theorem standing_withdraw (p : Pipeline) (t : Task) (j : String) :
    (p.withdraw t).standing j =
      if j = t.job then
        { p.standing j with
          calls := (p.standing j).calls.map fun c =>
            if !Stage.shields t.stage then { c with awaited := false } else c }
      else p.standing j := by
  have hcalls := filter_unawaited p.calls t.job j (Stage.shields t.stage)
  by_cases hj : j = t.job
  · rw [if_pos hj] at hcalls ⊢
    unfold standing withdraw
    simp only [hcalls]
    rfl
  · rw [if_neg hj] at hcalls ⊢
    unfold standing withdraw
    simp only [hcalls]
    rfl

theorem line_withdraw (p : Pipeline) (t : Task) :
    (p.withdraw t).line = p.line.filter (· ≠ t.job) := by
  unfold line withdraw Slots.leave
  cases p.slots <;> rfl

theorem standing_cancel_self (p : Pipeline) (i : String) :
    (p.cancel i).standing i = (p.standing i).cancel := by
  unfold cancel Standing.cancel
  cases ht : p.task? i with
  | none =>
    have hu : (p.standing i).task = none := congrArg (Option.map Task.bare) ht
    simp only [hu]
  | some t =>
    have hjob := job_of_task? ht
    have hu : (p.standing i).task = some t.bare := congrArg (Option.map Task.bare) ht
    simp only [hu]
    by_cases hended : t.isEnded = true
    · rw [if_pos (show t.bare.isEnded = true from hended)]
      unfold cancelTask
      rw [if_pos hended]
    · have hwithdrawn := standing_withdraw p t i
      rw [if_pos hjob.symm] at hwithdrawn
      rw [if_neg (show ¬ t.bare.isEnded = true from hended), cancelTask_eq p hended,
        standing_putTask_self (t := { t with signal := some .cancelled }) hjob
          (by rw [hwithdrawn]; exact hu), hwithdrawn]
      rfl

theorem standing_cancel_of_ne (h : j ≠ i) : (p.cancel i).standing j = p.standing j := by
  unfold cancel
  cases ht : p.task? i with
  | none => rfl
  | some t =>
    have hjob : j ≠ t.job := (job_of_task? ht).symm ▸ h
    simp only
    by_cases hended : t.isEnded = true
    · unfold cancelTask
      rw [if_pos hended]
    · rw [cancelTask_eq p hended,
        standing_putTask_of_ne (t := { t with signal := some .cancelled }) hjob, standing_withdraw,
        if_neg hjob]

theorem kept_cancel (hq : p.Queueing) (i : String) : Kept p (p.cancel i) := by
  have hframe := fun j (h : j ≠ i) => standing_cancel_of_ne (p := p) h
  unfold cancel at hframe ⊢
  cases ht : p.task? i with
  | none => exact .refl hq
  | some t =>
    have hjob := job_of_task? ht
    simp only [ht] at hframe ⊢
    by_cases hended : t.isEnded = true
    · unfold cancelTask
      rw [if_pos hended]
      exact .refl hq
    · rw [cancelTask_eq p hended] at hframe ⊢
      have hline : ((p.withdraw t).putTask { t with signal := some .cancelled }).line =
          p.line.filter (· ≠ t.job) := line_withdraw p t
      refine ⟨rfl, rfl, rfl, hq.of_frame ?_ fun j hj => ?_⟩
      · rw [hline]
        exact List.filter_sublist
      · rw [hline, List.mem_filter, decide_eq_true_eq, hjob] at hj
        rw [hframe j hj.2]

/-- Cancelling twice is cancelling once. -/
theorem cancel_cancel (v : Standing) : v.cancel.cancel = v.cancel := by
  unfold Standing.cancel
  cases hu : v.task with
  | none => simp only [hu]
  | some t =>
    by_cases hended : t.isEnded = true
    · simp only [if_pos hended, hu]
    · simp only [if_neg hended]
      rw [if_neg (show ¬ ({ t with signal := some .cancelled } : Task).isEnded = true from hended)]
      simp only [List.map_map]
      congr 1
      refine List.map_congr_left fun c _ => ?_
      cases Stage.shields t.stage <;> simp

theorem kept_cancels (hq : p.Queueing) (is : List String) : Kept p (is.foldl cancel p) := by
  induction is generalizing p with
  | nil => exact .refl hq
  | cons i is ih =>
    have hone := kept_cancel hq i
    exact hone.trans (ih hone.queueing)

theorem standing_cancels (is : List String) (j : String) :
    (is.foldl cancel p).standing j =
      if j ∈ is then (p.standing j).cancel else p.standing j := by
  induction is generalizing p with
  | nil => simp
  | cons i is ih =>
    rw [List.foldl_cons, ih]
    by_cases hj : j = i
    · subst hj
      simp [standing_cancel_self, cancel_cancel]
    · simp [standing_cancel_of_ne hj, hj]

/-- **A shutdown cancels every job.** -/
theorem standing_shutdown (p : Pipeline) (j : String) :
    p.shutdown.standing j = (p.standing j).cancel := by
  unfold shutdown
  rw [standing_cancels]
  split_ifs with hj
  · rfl
  · have hnone : (p.standing j).task = none := by
      have hfind : p.task? j = none := by
        refine List.find?_eq_none.mpr fun t ht => ?_
        have hne : t.job ≠ j := fun h => hj (h ▸ List.mem_map_of_mem ht)
        simpa using hne
      exact congrArg (Option.map Task.bare) hfind
    rw [settled_cancel hnone]

/-! ## Events -/

/-- What belongs together does so for every job, and those in line wait. -/
structure Consistent (p : Pipeline) : Prop where
  sound : ∀ job, Sound p.setup (p.standing job)
  queueing : p.Queueing

/-- A pipeline without jobs is consistent. -/
theorem consistent_start (setup : PipelineSetup) (tree : FileTree FileBody) :
    (start setup tree).Consistent := by
  refine ⟨fun job => sound_unknown setup job tree, ?_⟩
  have hline : (start setup tree).line = [] := by
    unfold start line
    cases setup.limit <;> rfl
  refine ⟨by rw [hline]; exact List.nodup_nil, fun job hjob => ?_⟩
  rw [hline] at hjob
  cases hjob

end Pipeline

/-- The event cancels a job. -/
def Event.cancels (e : Event) (job : String) : Bool :=
  match e with
  | .cancel i => i == job
  | .shutdown => true
  | _ => false

/-- The submission of a request that has a valid table. -/
def Event.accepted? : Event → Option (String × Request)
  | .submit job r => if r.validTables.isEmpty then none else some (job, r)
  | _ => none

/-- The requests that a history makes jobs of, by the names of the jobs. -/
def accepted (events : List Event) : List (String × Request) := events.filterMap Event.accepted?

theorem accepted_concat (events : List Event) (e : Event) :
    accepted (events ++ [e]) = accepted events ++ e.accepted?.toList := by
  unfold accepted
  rw [List.filterMap_append]
  cases h : e.accepted? <;> simp [h]

namespace Pipeline

variable {p : Pipeline} {taken : String → Request → Prop}

theorem submit_of_refused {job : String} {r : Request}
    (h : r.validTables = [] ∨ (p.registry.get? job).isSome = true) : p.submit job r = p := by
  unfold submit
  rcases h with h | h <;> simp [h]

theorem submit_of_accepted {job : String} {r : Request} (hvalid : r.validTables ≠ [])
    (hnew : p.registry.get? job = none) :
    p.submit job r =
      { p with registry := p.registry.create job, tasks := p.tasks ++ [{ job, request := r }] } := by
  unfold submit
  rw [hnew, if_neg]
  simpa using hvalid

theorem standing_submit {job : String} {r : Request} (hvalid : r.validTables ≠ [])
    (hnew : p.registry.get? job = none) (htask : (p.standing job).task = none) (j : String) :
    (p.submit job r).standing j =
      if j = job then
        { p.standing j with
          record := some { id := job, message := queuedMessage }
          task := some { job, request := r } }
      else p.standing j := by
  rw [submit_of_accepted hvalid hnew]
  have hnone : p.task? job = none := Option.map_eq_none_iff.mp htask
  by_cases hj : j = job
  · subst hj
    unfold task? at hnone
    simp [standing, Registry.get?_create, hnew, task?, List.find?_append, hnone, Task.bare]
  · have hb : (job == j) = false := beq_false_of_ne (Ne.symm hj)
    simp [standing, Registry.get?_create, task?, List.find?_append, hb, hj, Ne.symm hj]

/-- A submission is refused, or registers a job that nothing is known of. -/
theorem submit_cases (h : p.Consistent) (job : String) (r : Request) :
    p.submit job r = p ∨
      (r.validTables ≠ [] ∧ p.registry.get? job = none ∧ (p.standing job).task = none) := by
  by_cases hvalid : r.validTables = []
  · exact .inl (submit_of_refused (.inl hvalid))
  · cases hnew : p.registry.get? job with
    | some record => exact .inl (submit_of_refused (.inr (by rw [hnew]; rfl)))
    | none => exact .inr ⟨hvalid, rfl, ((h.sound job).unknown hnew).1⟩

theorem kept_submit (hq : p.Queueing) {job : String} {r : Request} (hvalid : r.validTables ≠ [])
    (hnew : p.registry.get? job = none) (htask : (p.standing job).task = none) :
    (p.submit job r).setup = p.setup ∧ (p.submit job r).refusals = p.refusals ∧
      (p.submit job r).Queueing := by
  have hframe := standing_submit hvalid hnew htask
  have hline : (p.submit job r).line = p.line := by
    rw [submit_of_accepted hvalid hnew]
    rfl
  refine ⟨?_, ?_, hq.of_frame (by rw [hline]) fun j hj => ?_⟩
  · rw [submit_of_accepted hvalid hnew]
  · rw [submit_of_accepted hvalid hnew]
  · have hne : j ≠ job := by
      rintro rfl
      obtain ⟨t, ht, -⟩ := hq.waits j (hline ▸ hj)
      rw [htask] at ht
      cases ht
    rw [hframe, if_neg hne]

/-- Calls belong to jobs that are registered. -/
theorem Consistent.job_mem_ids (h : p.Consistent) {c : WorkerCall} (hc : c ∈ p.calls) :
    c.job ∈ p.registry.jobs.map Job.id := by
  have hcalls : (p.standing c.job).calls ≠ [] := by
    have hmem : c ∈ (p.standing c.job).calls := List.mem_filter.mpr ⟨hc, beq_self_eq_true c.job⟩
    exact List.ne_nil_of_mem hmem
  obtain ⟨r, hr⟩ := Option.ne_none_iff_exists'.mp ((h.sound c.job).ne_none_of_calls hcalls)
  have hget : p.registry.get? c.job = some r := hr
  exact List.mem_map.mpr ⟨r, List.mem_of_find?_eq_some hget, Registry.id_of_get? hget⟩

/-- **What an event is for one job**: its cancellation, or something that happens to it. -/
theorem standing_step (h : p.Consistent)
    (hids : ∀ id ∈ p.registry.jobs.map Job.id, ∃ r, taken id r) {e : Event}
    (htaken : ∀ x, e.accepted? = some x → taken x.1 x.2) (j : String) :
    if e.cancels j then (p.step e).standing j = (p.standing j).cancel
    else Relation.ReflTransGen (Happens p.setup taken) (p.standing j) ((p.step e).standing j) := by
  cases e with
  | submit job r =>
    rw [if_neg (by simp [Event.cancels])]
    show Relation.ReflTransGen _ _ ((p.submit job r).standing j)
    rcases submit_cases h job r with hsame | ⟨hvalid, hnew, htask⟩
    · rw [hsame]
    · rw [standing_submit hvalid hnew htask]
      split_ifs with hj
      · subst hj
        refine .single (.submitted (htaken (j, r) ?_) hnew)
        simp [Event.accepted?, hvalid]
      · exact .refl
  | resume i =>
    rw [if_neg (by simp [Event.cancels])]
    exact (steps_resume h.queueing h.sound i).happens j
  | retire i =>
    rw [if_neg (by simp [Event.cancels])]
    exact (steps_retire h.queueing h.sound i).happens j
  | begin k =>
    rw [if_neg (by simp [Event.cancels])]
    exact (steps_begin h.queueing k).happens j
  | finish k =>
    rw [if_neg (by simp [Event.cancels])]
    exact (steps_finish h.queueing h.sound (fun c hc => hids _ (h.job_mem_ids hc)) k).happens j
  | drop k =>
    rw [if_neg (by simp [Event.cancels])]
    exact (steps_drop h.queueing k).happens j
  | cancel i =>
    show if (i == j) = true then (p.cancel i).standing j = _ else _
    by_cases hj : i = j
    · subst hj
      rw [if_pos (beq_self_eq_true i), standing_cancel_self]
    · rw [if_neg (by simpa using hj)]
      show Relation.ReflTransGen _ _ ((p.cancel i).standing j)
      rw [standing_cancel_of_ne (Ne.symm hj)]
  | shutdown => exact standing_shutdown p j

/-- What an event is for one job, whichever requests are taken. -/
theorem standing_step_any (h : p.Consistent) (e : Event) (j : String) :
    if e.cancels j then (p.step e).standing j = (p.standing j).cancel
    else Relation.ReflTransGen (Happens p.setup fun _ _ => True) (p.standing j)
      ((p.step e).standing j) :=
  standing_step h (fun _ _ => ⟨{}, trivial⟩) (fun _ _ => trivial) j

/-- Only a submission registers a job. -/
theorem kept_of_ne_submit (h : p.Consistent) {e : Event} (he : ∀ job r, e ≠ .submit job r) :
    Kept p (p.step e) := by
  -- it does not matter here which requests are taken
  let taken : String → Request → Prop := fun _ _ => True
  have hkept : ∀ {p' : Pipeline}, Steps taken p p' → Kept p p' := fun hsteps => hsteps.toKept
  cases e with
  | submit job r => exact absurd rfl (he job r)
  | resume i => exact hkept (steps_resume h.queueing h.sound i)
  | retire i => exact hkept (steps_retire h.queueing h.sound i)
  | begin k => exact hkept (steps_begin h.queueing k)
  | finish k => exact hkept (steps_finish h.queueing h.sound (fun _ _ => ⟨{}, trivial⟩) k)
  | drop k => exact hkept (steps_drop h.queueing k)
  | cancel i => exact kept_cancel h.queueing i
  | shutdown => exact kept_cancels h.queueing _

/-- Every event keeps the setup and the line, and the registry refuses no move. -/
theorem kept_step (h : p.Consistent) (e : Event) :
    (p.step e).setup = p.setup ∧ (p.step e).refusals = p.refusals ∧ (p.step e).Queueing := by
  have hkept : ∀ {p' : Pipeline}, Kept p p' →
      p'.setup = p.setup ∧ p'.refusals = p.refusals ∧ p'.Queueing :=
    fun hk => ⟨hk.setup, hk.refusals, hk.queueing⟩
  cases e with
  | submit job r =>
    show (p.submit job r).setup = _ ∧ (p.submit job r).refusals = _ ∧ (p.submit job r).Queueing
    rcases submit_cases h job r with hsame | ⟨hvalid, hnew, htask⟩
    · rw [hsame]
      exact ⟨rfl, rfl, h.queueing⟩
    · exact kept_submit h.queueing hvalid hnew htask
  | _ => exact hkept (kept_of_ne_submit h fun _ _ => nofun)

/-- **Consistency is kept.** -/
theorem consistent_step (h : p.Consistent) (e : Event) : (p.step e).Consistent := by
  obtain ⟨hsetup, -, hqueueing⟩ := kept_step h e
  refine ⟨fun job => ?_, hqueueing⟩
  rw [hsetup]
  have hstep := standing_step_any h e job
  split_ifs at hstep
  · rw [hstep]
    exact sound_cancel (h.sound job)
  · exact sound_reaches (h.sound job) hstep

theorem consistent_run (h : p.Consistent) (events : List Event) : (p.run events).Consistent := by
  induction events generalizing p with
  | nil => exact h
  | cons e events ih => exact ih (consistent_step h e)

theorem run_concat (p : Pipeline) (events : List Event) (e : Event) :
    p.run (events ++ [e]) = (p.run events).step e := by
  unfold run
  rw [List.foldl_append]
  rfl

theorem setup_run (h : p.Consistent) (events : List Event) : (p.run events).setup = p.setup := by
  induction events generalizing p with
  | nil => rfl
  | cons e events ih => exact (ih (consistent_step h e)).trans (kept_step h e).1

/-- **The registry refuses no move.** -/
theorem refusals_run (h : p.Consistent) (events : List Event) :
    (p.run events).refusals = p.refusals := by
  induction events generalizing p with
  | nil => rfl
  | cons e events ih => exact (ih (consistent_step h e)).trans (kept_step h e).2.1

theorem get?_eq_none_iff (p : Pipeline) (job : String) :
    p.registry.get? job = none ↔ job ∉ p.registry.jobs.map Job.id := by
  unfold Registry.get?
  rw [List.find?_eq_none]
  constructor
  · rintro h hmem
    obtain ⟨r, hr, hid⟩ := List.mem_map.mp hmem
    exact h r hr (by simpa using hid)
  · intro h r hr hid
    exact h (List.mem_map.mpr ⟨r, hr, by simpa using hid⟩)

/-- An event registers the job of a submission that it accepts, unless that is registered. -/
theorem ids_step (h : p.Consistent) (e : Event) :
    (p.step e).registry.jobs.map Job.id = p.registry.jobs.map Job.id ++
      (e.accepted?.toList.map Prod.fst).filter (· ∉ p.registry.jobs.map Job.id) := by
  have hkept : ∀ {p' : Pipeline}, Kept p p' → p'.registry.jobs.map Job.id =
      p.registry.jobs.map Job.id ++ ([] : List String) := fun hk => by rw [hk.ids, List.append_nil]
  cases e with
  | submit job r =>
    show (p.submit job r).registry.jobs.map Job.id = _
    by_cases hvalid : r.validTables = []
    · rw [submit_of_refused (.inl hvalid)]
      simp [Event.accepted?, hvalid]
    · have haccepted : Event.accepted? (.submit job r) = some (job, r) := by
        simp [Event.accepted?, hvalid]
      rw [haccepted]
      by_cases hnew : p.registry.get? job = none
      · rw [submit_of_accepted hvalid hnew]
        have hmem := (get?_eq_none_iff p job).mp hnew
        simp only [Registry.create, List.map_append, List.map_cons, List.map_nil,
          Option.toList_some, List.filter_cons, List.filter_nil]
        rw [if_pos (by simpa using hmem)]
      · rw [submit_of_refused (.inr (Option.isSome_iff_ne_none.mpr hnew))]
        have hmem := (not_congr (get?_eq_none_iff p job)).mp hnew
        rw [not_not] at hmem
        simp only [Option.toList_some, List.map_cons, List.map_nil, List.filter_cons,
          List.filter_nil]
        rw [if_neg (by simpa using hmem), List.append_nil]
  | _ => exact hkept (kept_of_ne_submit h fun _ _ => nofun)

section Histories

variable (setup : PipelineSetup) (tree : FileTree FileBody)

theorem consistent_history (events : List Event) : ((start setup tree).run events).Consistent :=
  consistent_run (consistent_start setup tree) events

/-- Only jobs that were accepted are registered. -/
theorem ids_subset_accepted (events : List Event) :
    ((start setup tree).run events).registry.jobs.map Job.id ⊆ (accepted events).map Prod.fst := by
  induction events using List.reverseRecOn with
  | nil => exact List.Subset.refl _
  | append_singleton events e ih =>
    rw [run_concat, ids_step (consistent_history setup tree events), accepted_concat,
      List.map_append]
    refine List.append_subset.mpr ⟨fun id hid => List.mem_append_left _ (ih hid), ?_⟩
    exact fun id hid => List.mem_append_right _ (List.mem_of_mem_filter hid)

/-- **There is one record for every submission that was accepted.** -/
theorem ids_eq_accepted {events : List Event} (h : ((accepted events).map Prod.fst).Nodup) :
    ((start setup tree).run events).registry.jobs.map Job.id = (accepted events).map Prod.fst := by
  induction events using List.reverseRecOn with
  | nil => rfl
  | append_singleton events e ih =>
    rw [accepted_concat, List.map_append] at h ⊢
    rw [List.nodup_append'] at h
    rw [run_concat, ids_step (consistent_history setup tree events), ih h.1]
    congr 1
    refine List.filter_eq_self.mpr fun id hid => ?_
    simpa using fun hmem => h.2.2 hmem hid

/-- **What holds of a job all along holds of it in every state**: it holds of a job that nothing is
known of, whatever happens to the job keeps it, and so do the cancellations of the history. -/
theorem standing_run_induction {events : List Event} {job : String} {P : Standing → Prop}
    (htaken : ∀ x ∈ accepted events, taken x.1 x.2) (hstart : P (unknown job tree))
    (hhappens : ∀ v v', v.job = job → Sound setup v → P v → Happens setup taken v v' → P v')
    (hcancel : ∀ front e back, events = front ++ e :: back → e.cancels job = true →
      Sound setup (((start setup tree).run front).standing job) →
      P (((start setup tree).run front).standing job) →
      P (((start setup tree).run front).standing job).cancel) :
    P (((start setup tree).run events).standing job) := by
  induction events using List.reverseRecOn with
  | nil => exact hstart
  | append_singleton events e ih =>
    have hbefore : P (((start setup tree).run events).standing job) := by
      refine ih (fun x hx => htaken x ?_) fun front e' back hevents => ?_
      · rw [accepted_concat]
        exact List.mem_append_left _ hx
      · exact hcancel front e' (back ++ [e]) (by rw [hevents]; simp)
    have hconsistent := consistent_history setup tree events
    have hsetup : ((start setup tree).run events).setup = setup :=
      setup_run (consistent_start setup tree) events
    have hids : ∀ id ∈ ((start setup tree).run events).registry.jobs.map Job.id,
        ∃ r, taken id r := by
      intro id hid
      obtain ⟨x, hx, rfl⟩ := List.mem_map.mp (ids_subset_accepted setup tree events hid)
      refine ⟨x.2, htaken x ?_⟩
      rw [accepted_concat]
      exact List.mem_append_left _ hx
    have hlast : ∀ x, e.accepted? = some x → taken x.1 x.2 := by
      intro x hx
      refine htaken x ?_
      rw [accepted_concat, hx]
      exact List.mem_append_right _ (List.mem_singleton_self x)
    have hstep := standing_step hconsistent hids hlast job
    have hsound := hconsistent.sound job
    rw [hsetup] at hstep hsound
    rw [run_concat]
    split_ifs at hstep with hcancels
    · rw [hstep]
      exact hcancel events e [] rfl hcancels hsound hbefore
    · have hreached := reaches_induction (P := fun v => v.job = job ∧ P v)
        (fun v v' hsound hv hstep =>
          ⟨(job_happens hstep).trans hv.1, hhappens v v' hv.1 hsound hv.2 hstep⟩)
        hsound ⟨rfl, hbefore⟩ hstep
      exact hreached.2

/-- A job that is reported in some state has a record that says so. -/
theorem exists_record_of_status {p : Pipeline} {job : String} {status : JobStatus}
    (h : (p.registry.status job).status = status) (hfound : status ≠ .notFound) :
    ∃ r, p.registry.get? job = some r ∧ r.status = status := by
  unfold Registry.status at h
  cases hr : p.registry.get? job with
  | none =>
    rw [hr] at h
    exact absurd h.symm hfound
  | some r =>
    rw [hr] at h
    exact ⟨r, rfl, h⟩

/-- A job that has a record was accepted. -/
theorem exists_accepted_of_get? {events : List Event} {job : String} {r : Job}
    (hr : ((start setup tree).run events).registry.get? job = some r) :
    ∃ request, (job, request) ∈ accepted events := by
  have hmem : job ∈ ((start setup tree).run events).registry.jobs.map Job.id := by
    by_contra hnot
    rw [(get?_eq_none_iff _ job).mpr hnot] at hr
    cases hr
  obtain ⟨⟨id, request⟩, hrequest, rfl⟩ :=
    List.mem_map.mp (ids_subset_accepted setup tree events hmem)
  exact ⟨request, hrequest⟩

end Histories

end Pipeline

end EntityScaffold
