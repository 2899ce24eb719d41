import EntityScaffold.Proofs.Jobs.Frames

/-!
# Turns of a task

A task runs until it waits again or ends. Whatever it does in such a turn is one thing that happens
to its job, and nothing happens to the other jobs but that one is called to a slot.

* `Pipeline.Steps`: one state leads to another by what happens to the jobs.
* `Pipeline.Turn`: what is known when the task of a job has its turn.

Results:
* `Pipeline.Turn.proceed`, `yieldToError`, `yieldToCancel`: the turns, stage by stage.
* `Pipeline.steps_resume`: a turn is something that happens to its job.
-/

namespace EntityScaffold

open Standing

namespace Pipeline

variable {p p' : Pipeline} {t : Task} {i j : String}

/-! ## Turns -/

section Turns

variable {taken : String → Request → Prop} {r : Job} {u : Task}

theorem Confined.conclude (h : Confined taken i p p') (hi : i ∉ p.line) (hjob : t.job = i)
    (hr : (p'.standing i).record = some r) (hstatus : r.status ≠ .notFound)
    (cause : Option GivingUp) : Confined taken i p (p'.conclude t cause) := by
  subst hjob
  have hreleased := h.releaseSlot t
  rw [← standing_releaseSlot t (h.not_mem hi)] at hr
  match cause with
  | none => exact hreleased.putTask hi rfl
  | some .cancelled => exact (hreleased.fail hi hr hstatus _).putTask hi rfl
  | some (.failed m) => exact (hreleased.fail hi hr hstatus _).putTask hi rfl

theorem standing_conclude (hj : j ∉ p.line) (hjob : t.job = j)
    (hu : (p.standing j).task = some u) (hr : (p.standing j).record = some r)
    (hstatus : r.status ≠ .notFound) (cause : Option GivingUp) :
    (p.conclude t cause).standing j = (p.standing j).conclude t.bare cause := by
  subst hjob
  have hreleased := standing_releaseSlot t hj
  rw [← hreleased] at hu hr ⊢
  have hfailed : ∀ m, (((p.releaseSlot t).fail t.job m).standing t.job).task = some u := by
    intro m
    rw [standing_fail_self hr hstatus, fail_task, hu]
  match cause with
  | none => exact standing_putTask_self rfl hu
  | some .cancelled =>
    rw [Standing.conclude, ← standing_fail_self hr hstatus]
    exact standing_putTask_self rfl (hfailed _)
  | some (.failed m) =>
    rw [Standing.conclude, ← standing_fail_self hr hstatus]
    exact standing_putTask_self rfl (hfailed _)

/-- One state leads to another by what happens to the jobs. -/
structure Steps (taken : String → Request → Prop) (p p' : Pipeline) : Prop extends Kept p p' where
  happens : ∀ j, Relation.ReflTransGen (Happens p.setup taken) (p.standing j) (p'.standing j)

theorem Steps.refl (h : p.Queueing) : Steps taken p p := ⟨.refl h, fun _ => .refl⟩

theorem Confined.steps (h : Confined taken i p p')
    (hown : Happens p.setup taken (p.standing i) (p'.standing i)) : Steps taken p p' := by
  refine ⟨h.toKept, fun j => ?_⟩
  by_cases hj : j = i
  · subst hj
    exact .single hown
  · exact h.elsewhere j hj

/-- The task comes to another stage. -/
theorem steps_putTask (hq : p.Queueing) (hi : i ∉ p.line) (ht : p.task? i = some t)
    (stage : Stage) (signal : Option Signal)
    (hown : Happens p.setup taken (p.standing i) ((p.standing i).place t.bare stage signal)) :
    Steps taken p (p.putTask { t with stage, signal }) := by
  have hjob := job_of_task? ht
  have hu : (p.standing i).task = some t.bare := congrArg (Option.map Task.bare) ht
  refine ((Confined.refl hq).putTask (t := { t with stage, signal }) hi hjob).steps ?_
  rw [standing_putTask_self (t := { t with stage, signal }) hjob hu]
  exact hown

theorem steps_hand (hq : p.Queueing) (hi : i ∉ p.line) (ht : p.task? i = some t)
    (work : Work) (stage : Stage)
    (hown : Happens p.setup taken (p.standing i) ((p.standing i).hand t.bare work stage)) :
    Steps taken p (p.hand t work stage) := by
  have hjob := job_of_task? ht
  have hu : (p.standing i).task = some t.bare := congrArg (Option.map Task.bare) ht
  refine ((Confined.refl hq).hand hi hjob work stage).steps ?_
  rw [standing_hand_self hjob hu]
  exact hown

theorem steps_conclude (h : Confined taken i p p') (hi : i ∉ p.line)
    (hsame : p'.standing i = p.standing i) (ht : p.task? i = some t)
    (hr : (p.standing i).record = some r) (hstatus : r.status ≠ .notFound) (cause : Option GivingUp)
    (hown : Happens p.setup taken (p.standing i) ((p.standing i).conclude t.bare cause)) :
    Steps taken p (p'.conclude t cause) := by
  have hjob := job_of_task? ht
  have hu : (p'.standing i).task = some t.bare := by
    rw [hsame]
    exact congrArg (Option.map Task.bare) ht
  have hr' : (p'.standing i).record = some r := by rw [hsame, hr]
  refine (h.conclude hi hjob hr' hstatus cause).steps ?_
  rw [standing_conclude (h.not_mem hi) hjob hu hr' hstatus, hsame]
  exact hown

/-- The task starts to work on its job. -/
theorem steps_execute (h : Confined taken i p p') (hi : i ∉ p.line) (hjob : t.job = i)
    (hsame : p'.standing i = p.standing i) (hu : (p.standing i).task = some t.bare)
    (hr : (p.standing i).record = some r) (hstatus : r.status = .queued)
    (hstage : t.stage = .scheduled ∨ t.stage = .waiting)
    (hsignal : t.signal = some (.done (.ok ()))) : Steps taken p (p'.execute t) := by
  subst hjob
  have hr' : (p'.standing t.job).record = some r := by rw [hsame, hr]
  have hmay : r.status.mayBecome .processing = true := by rw [hstatus]; rfl
  have hmoved := h.move hi hr' hmay processingMessage none
  have hstanding := standing_move_self hr' hmay processingMessage none
  rw [hsame] at hstanding
  have hu' : ((p'.move t.job .processing processingMessage).standing t.job).task = some t.bare := by
    rw [hstanding]
    exact hu
  cases harea : StagingArea.of p.setup.stagingRoot t.job with
  | error e =>
    rw [← hmoved.setup] at harea
    simp only [execute, harea]
    rw [hmoved.setup] at harea
    have hrecord : ((p'.move t.job .processing processingMessage).standing t.job).record =
        some ⟨r.id, .processing, processingMessage, none⟩ := by
      rw [hstanding, record_become hr]
    have hprocessing : JobStatus.processing ≠ .notFound := by decide
    refine (hmoved.conclude hi rfl hrecord hprocessing _).steps ?_
    rw [standing_conclude (hmoved.not_mem hi) rfl hu' hrecord hprocessing, hstanding]
    exact .refused hu hstage hsignal harea
  | ok area =>
    rw [← hmoved.setup] at harea
    simp only [execute, harea]
    rw [hmoved.setup] at harea
    have hplaced := hmoved.putArea hi area
    refine (hplaced.hand hi rfl _ _).steps ?_
    rw [standing_hand_self rfl (by rw [standing_putArea_self]; exact hu'), standing_putArea_self,
      hstanding]
    exact .started hu hstage hsignal harea

/-- Who asks for a slot takes one, or joins the line. -/
theorem acquire_eq (s : Slots) (job : String) :
    (0 < s.free ∧ s.acquire job = ({ s with free := s.free - 1 }, true)) ∨
      s.acquire job = ({ s with line := s.line ++ [job] }, false) := by
  unfold Slots.acquire
  split_ifs with h
  · exact .inl ⟨h.1, rfl⟩
  · exact .inr rfl

theorem acquire_cases (s : Slots) (job : String) :
    (∃ s', s.acquire job = (s', true) ∧ s'.line = s.line) ∨
      ∃ s', s.acquire job = (s', false) ∧ s'.line = s.line ++ [job] := by
  rcases acquire_eq s job with ⟨-, hacquired⟩ | hjoined
  · exact .inl ⟨_, hacquired, rfl⟩
  · exact .inr ⟨_, hjoined, rfl⟩

/-- The task joins the line. -/
theorem steps_queued (hq : p.Queueing) (hi : i ∉ p.line) (ht : p.task? i = some t) {s : Slots}
    (hline : s.line = p.line ++ [i])
    (hown : Happens p.setup taken (p.standing i) ((p.standing i).place t.bare .waiting none)) :
    Steps taken p (putTask { p with slots := some s } { t with stage := .waiting, signal := none })
    := by
  have hjob := job_of_task? ht
  have hu : (p.standing i).task = some t.bare := congrArg (Option.map Task.bare) ht
  set p' := putTask { p with slots := some s } { t with stage := .waiting, signal := none } with hp'
  have hself : p'.standing i = (p.standing i).place t.bare .waiting none :=
    standing_putTask_self (p := { p with slots := some s })
      (t := { t with stage := .waiting, signal := none }) hjob hu
  have hothers : ∀ j ≠ i, p'.standing j = p.standing j := fun j hj =>
    standing_putTask_of_ne (p := { p with slots := some s })
      (t := { t with stage := .waiting, signal := none }) (hjob ▸ hj)
  have hline' : p'.line = p.line ++ [i] := hline
  refine ⟨⟨rfl, rfl, rfl, ?_, ?_⟩, fun j => ?_⟩
  · rw [hline', List.nodup_append']
    exact ⟨hq.nodup, List.nodup_singleton _, List.disjoint_singleton.mpr hi⟩
  · intro j hj
    rw [hline', List.mem_append, List.mem_singleton] at hj
    rcases hj with hj | rfl
    · rw [hothers j fun h => hi (h ▸ hj)]
      exact hq.waits j hj
    · rw [hself]
      exact ⟨_, rfl, rfl, rfl⟩
  · by_cases hj : j = i
    · subst hj
      rw [hself]
      exact .single hown
    · rw [hothers j hj]

/-- What is known when the task of a job has its turn. -/
structure Turn (p : Pipeline) (i : String) (t : Task) (r : Job) : Prop where
  queueing : p.Queueing
  outside : i ∉ p.line
  task : p.task? i = some t
  record : (p.standing i).record = some r
  fits : t.stage.fits r.status = true

namespace Turn

variable {taken : String → Request → Prop}

theorem bare (h : Turn p i t r) : (p.standing i).task = some t.bare :=
  congrArg (Option.map Task.bare) h.task

theorem conclude (h : Turn p i t r) {signal : Signal} (hsignal : t.signal = some signal)
    {cause : Option GivingUp} (hcause : t.stage.conclusion? signal = some cause) :
    Steps taken p (p.conclude t cause) :=
  steps_conclude (.refl h.queueing) h.outside rfl h.task h.record (ne_notFound_of_fits h.fits) cause
    (.concluded h.bare hsignal hcause)

theorem cleanUp (h : Turn p i t r) {signal : Signal} (hsignal : t.signal = some signal)
    {cause : GivingUp} (hcause : t.stage.cleanUp? signal = some cause) :
    Steps taken p (p.cleanUp t (some cause)) :=
  steps_hand h.queueing h.outside h.task _ _ (.cleanedUp h.bare hsignal hcause)

/-- The task runs for the first time. -/
theorem enter (h : Turn p i t r) (hstage : t.stage = .scheduled)
    (hsignal : t.signal = some (.done (.ok ()))) : Steps taken p (p.enter t) := by
  have hjob := job_of_task? h.task
  have hstatus : r.status = .queued := by simpa [hstage, Stage.fits] using h.fits
  unfold Pipeline.enter
  cases hslots : p.slots with
  | none =>
    exact steps_execute (.refl h.queueing) h.outside hjob rfl h.bare h.record hstatus
      (.inl hstage) hsignal
  | some s =>
    have hline : p.line = s.line := by
      unfold line
      rw [hslots]
      rfl
    rcases acquire_cases s t.job with ⟨s', hs', hfree⟩ | ⟨s', hs', hjoined⟩
    · simp only [hs']
      have htook : Confined taken i p { p with slots := some s' } :=
        (Confined.refl h.queueing).trans_of_frame h.outside rfl rfl rfl
          (hfree.trans hline.symm) fun _ _ => rfl
      exact steps_execute (t := { t with holdsSlot := true }) htook h.outside hjob rfl h.bare
        h.record hstatus (.inl hstage) hsignal
    · simp only [hs']
      refine steps_queued h.queueing h.outside h.task ?_ (.queued h.bare hstage hsignal)
      rw [hjoined, hline, hjob]

/-- The task goes on with its files. -/
theorem goOn (h : Turn p i t r) (hsignal : t.signal = some (.done (.ok ())))
    {files : List (String × String)}
    (hpending : t.stage.pending? (p.setup.generate t.request).files = some files) :
    Steps taken p (p.goOn t files) := by
  unfold Pipeline.goOn
  match files with
  | (path, text) :: rest =>
    exact steps_hand h.queueing h.outside h.task _ _ (.continued h.bare hsignal hpending)
  | [] =>
    cases hfailure : (p.setup.generate t.request).failure with
    | some m =>
      exact steps_hand h.queueing h.outside h.task _ _ (.gaveUp h.bare hsignal hpending hfailure)
    | none =>
      exact steps_hand h.queueing h.outside h.task _ _ (.staged h.bare hsignal hpending hfailure)

/-- The package is there. -/
theorem complete (h : Turn p i t r) (hstage : t.stage = .packaging)
    (hsignal : t.signal = some (.done (.ok ()))) : Steps taken p (p.complete t) := by
  have hjob := job_of_task? h.task
  subst hjob
  have hmay : r.status.mayBecome .completed = true := by
    have hstatus : r.status = .processing := by simpa [hstage, Stage.fits] using h.fits
    rw [hstatus]
    rfl
  have hrefl : Confined taken t.job p p := .refl h.queueing
  have hmoved := fun m => hrefl.move h.outside h.record hmay m (some (packageName t.job))
  refine ((hmoved _).hand h.outside rfl _ _).steps ?_
  rw [standing_hand_self rfl (by rw [standing_move_self h.record hmay]; exact h.bare),
    standing_move_self h.record hmay]
  exact .completed h.bare hstage hsignal

/-- The task waits for its writer. -/
theorem settle (h : Turn p i t r) (hstage : t.stage = .packaging)
    (hsignal : t.signal = some .cancelled) : Steps taken p (p.settle t) := by
  have hjob := job_of_task? h.task
  have hwriter : p.isOutstanding t.job .archive =
      (p.standing i).calls.any (·.work == .archive) := by
    unfold isOutstanding standing
    rw [hjob, List.any_filter]
  unfold Pipeline.settle
  rw [hwriter]
  exact steps_putTask h.queueing h.outside h.task _ _ (.settled h.bare hstage hsignal)

/-- A task for which everything went well. -/
theorem proceed (h : Turn p i t r) (hsignal : t.signal = some (.done (.ok ()))) :
    Steps taken p (p.proceed t) := by
  unfold Pipeline.proceed
  cases hstage : t.stage with
  | scheduled => exact h.enter hstage hsignal
  | waiting =>
    have hstatus : r.status = .queued := by simpa [hstage, Stage.fits] using h.fits
    exact steps_execute ((Confined.refl h.queueing).takeSlot t) h.outside (job_of_task? h.task)
      (standing_takeSlot t h.outside) h.bare h.record hstatus (.inr hstage) hsignal
  | creating => exact h.goOn hsignal (by rw [hstage]; rfl)
  | writing rest => exact h.goOn hsignal (by rw [hstage]; rfl)
  | packaging => exact h.complete hstage hsignal
  | settling =>
    exact steps_hand h.queueing h.outside h.task _ _ (.discarded h.bare hstage hsignal)
  | discarding => exact h.cleanUp hsignal (by rw [hstage]; rfl)
  | removing cause => exact h.conclude hsignal (by rw [hstage]; rfl)
  | ended cancelled => exact .refl h.queueing

/-- A task for which a call went wrong. -/
theorem yieldToError (h : Turn p i t r) {e : PackageError}
    (hsignal : t.signal = some (.done (.error e))) : Steps taken p (p.yieldToError t e) := by
  unfold Pipeline.yieldToError
  cases hstage : t.stage with
  | creating => exact h.conclude hsignal (by rw [hstage]; rfl)
  | writing rest => exact h.cleanUp hsignal (by rw [hstage]; rfl)
  | packaging => exact h.cleanUp hsignal (by rw [hstage]; rfl)
  | settling =>
    exact steps_hand h.queueing h.outside h.task _ _ (.discarded h.bare hstage hsignal)
  | discarding => exact h.cleanUp hsignal (by rw [hstage]; rfl)
  | removing cause => exact h.conclude hsignal (by rw [hstage]; rfl)
  | scheduled => exact .refl h.queueing
  | waiting => exact .refl h.queueing
  | ended cancelled => exact .refl h.queueing

/-- A task that was cancelled. -/
theorem yieldToCancel (h : Turn p i t r) (hsignal : t.signal = some .cancelled) :
    Steps taken p (p.yieldToCancel t) := by
  unfold Pipeline.yieldToCancel
  cases hstage : t.stage with
  | scheduled =>
    exact steps_putTask h.queueing h.outside h.task _ _ (.skipped h.bare hstage hsignal)
  | waiting =>
    have hbare : t.bare.stage.conclusion? .cancelled = some (some .cancelled) := by
      rw [show t.bare.stage = .waiting from hstage]
      rfl
    exact steps_conclude ((Confined.refl h.queueing).leaveLine h.outside t) h.outside rfl h.task
      h.record (ne_notFound_of_fits h.fits) _ (.concluded h.bare hsignal hbare)
  | creating => exact h.conclude hsignal (by rw [hstage]; rfl)
  | writing rest => exact h.cleanUp hsignal (by rw [hstage]; rfl)
  | packaging => exact h.settle hstage hsignal
  | settling => exact h.cleanUp hsignal (by rw [hstage]; rfl)
  | discarding => exact h.cleanUp hsignal (by rw [hstage]; rfl)
  | removing cause => exact h.conclude hsignal (by rw [hstage]; rfl)
  | ended cancelled => exact .refl h.queueing

end Turn

/-- **A turn of a task is something that happens to its job.** -/
theorem steps_resume (hq : p.Queueing) (hsound : ∀ j, Sound p.setup (p.standing j)) (i : String) :
    Steps taken p (p.resume i) := by
  unfold resume
  cases ht : p.task? i with
  | none => exact .refl hq
  | some t =>
    cases hsignal : t.signal with
    | none =>
      simp only [hsignal]
      exact .refl hq
    | some signal =>
      have hu : (p.standing i).task = some t.bare := congrArg (Option.map Task.bare) ht
      obtain ⟨r, hr⟩ := (hsound i).exists_record hu
      have hturn : Turn p i t r :=
        ⟨hq, hq.not_mem ht (.inl (by rw [hsignal]; rfl)), ht, hr, (hsound i).fits t.bare r hu hr⟩
      simp only [hsignal]
      match signal, hsignal with
      | .cancelled, hsignal => exact hturn.yieldToCancel hsignal
      | .done (.error e), hsignal => exact hturn.yieldToError hsignal
      | .done (.ok ()), hsignal => exact hturn.proceed hsignal

end Turns

end Pipeline

end EntityScaffold
