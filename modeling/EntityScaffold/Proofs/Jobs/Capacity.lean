import EntityScaffold.Proofs.Jobs.Records
import EntityScaffold.Proofs.Jobs.Supervision

/-!
# Slots are neither lost nor made

With a limit of `n`, every slot is free or held by one task at any time, so at most `n` jobs are
worked on at once. This has to be found again after every way in which a turn can end: a slot goes
to the first in line before its former job is marked as failed, and a cancellation may hit a task
that waits for a slot, has been called to one, works or cleans up.

* `Stage.isInside`: the task is between taking a slot and giving it back.
* `Task.SlotFits`: a task holds a slot where it has to, and none where it must not.
* `Pipeline.Balanced`: free and held slots are `n` together, and who was called to a slot waits.
* `Pipeline.Turning`: the same while a task has its turn and its entry in the table is old.

Results:
* `Pipeline.Turning.callNext`, `release`, `conclude`, `execute`: what a turn does with slots.
* `Pipeline.balanced_resume`: every turn keeps the balance.
* `Pipeline.balanced_step`, `balanced_run`: so does every event, and every history.
* `Pipeline.at_most_limit`: at most `n` jobs are processed, and all slots are free in the end.
-/

namespace EntityScaffold

/-- The task is between taking a slot and giving it back. -/
def Stage.isInside : Stage → Bool
  | .creating | .writing _ | .packaging | .settling | .discarding | .removing _ => true
  | .scheduled | .waiting | .ended _ => false

/-- Whether a task at this stage holds a slot. One that was cancelled in line may have been called
to a slot before or not. -/
def Stage.slot? : Stage → Option Signal → Option Bool
  | .scheduled, _ => some false
  | .waiting, none => some false
  | .waiting, some (.done _) => some true
  | .waiting, some .cancelled => none
  | .ended _, _ => some false
  | _, _ => some true

theorem Stage.slot?_of_isInside {stage : Stage} (h : stage.isInside = true)
    (signal : Option Signal) : stage.slot? signal = some true := by
  cases stage <;> first | rfl | cases h

theorem Task.slot?_of_isEnded {t : Task} (h : t.isEnded = true) (signal : Option Signal) :
    t.stage.slot? signal = some false := by
  unfold Task.isEnded at h
  split at h
  · rename_i hstage
    rw [hstage]
    rfl
  · cases h

/-- The task holds a slot where it has to, and none where it must not. -/
def Task.SlotFits (t : Task) : Prop := ∀ b ∈ t.stage.slot? t.signal, t.holdsSlot = b

theorem Task.SlotFits.of_eq {t : Task} {b : Bool} (h : t.stage.slot? t.signal = some b)
    (hholds : t.holdsSlot = b) : t.SlotFits := by
  intro b' hb'
  rw [h] at hb'
  cases hb'
  exact hholds

theorem Task.SlotFits.holds {t : Task} (h : t.SlotFits) (hinside : t.stage.isInside = true) :
    t.holdsSlot = true :=
  h true (Stage.slot?_of_isInside hinside _)

/-- The tasks with another entry for one of them. -/
def withEntry (tasks : List Task) (job : String) (g : Task → Task) : List Task :=
  tasks.map fun u => if u.job == job then g u else u

/-- A cancellation changes nothing about the slot of a task. -/
theorem Task.SlotFits.cancelled {t : Task} (h : t.SlotFits) :
    ({ t with signal := some .cancelled } : Task).SlotFits := by
  intro b hb
  refine h b ?_
  change b ∈ t.stage.slot? (some .cancelled) at hb
  cases hstage : t.stage with
  | waiting =>
    rw [hstage] at hb
    cases hb
  | _ =>
    rw [hstage] at hb
    exact hb

/-- A call is made from inside. -/
theorem Stage.isInside_of_awaits {stage : Stage} {work : Work}
    (h : Pipeline.Stage.awaits stage work = true) : stage.isInside = true := by
  unfold Pipeline.Stage.awaits at h
  split at h <;> first | rfl | cases h

/-- The task was called to a slot: it has that and can run. -/
def Task.called (t : Task) : Task :=
  { t with holdsSlot := true, signal := some (.done (.ok ())) }

/-- How many of these tasks hold a slot. -/
def held (tasks : List Task) : Nat := tasks.countP (·.holdsSlot)

section Updates

variable {tasks : List Task} {t u : Task} {g : Task → Task}

theorem jobs_withEntry (tasks : List Task) {job : String}
    (hg : ∀ u, u.job = job → (g u).job = job) :
    (withEntry tasks job g).map Task.job = tasks.map Task.job := by
  unfold withEntry
  rw [List.map_map]
  refine List.map_congr_left fun u _ => ?_
  by_cases h : u.job = job <;> simp [h, hg]

theorem mem_withEntry_of_ne (hu : u ∈ tasks) {job : String} (h : u.job ≠ job) :
    u ∈ withEntry tasks job g :=
  List.mem_map.mpr ⟨u, hu, by simp [h]⟩

/-- A task is the new one, or one of the others. -/
theorem mem_withEntry (hnodup : (tasks.map Task.job).Nodup) (ht : t ∈ tasks)
    (hu : u ∈ withEntry tasks t.job g) : u = g t ∨ u ∈ tasks ∧ u.job ≠ t.job := by
  obtain ⟨before, after, -, hupdated, hothers⟩ := update_of_mem hnodup ht g
  have hmem : u = g t ∨ u ∈ before ++ after := by
    unfold withEntry at hu
    rw [hupdated] at hu
    simpa [or_left_comm] using hu
  rw [← hothers] at hmem
  simpa using hmem

/-- Another entry for a task changes the count by what that task holds. -/
theorem held_withEntry (hnodup : (tasks.map Task.job).Nodup) (ht : t ∈ tasks) (g : Task → Task) :
    held (withEntry tasks t.job g) + t.holdsSlot.toNat = held tasks + (g t).holdsSlot.toNat := by
  obtain ⟨before, after, hsplit, hupdated, -⟩ := update_of_mem hnodup ht g
  unfold withEntry held
  rw [hupdated, hsplit]
  cases ht : t.holdsSlot <;> cases hg : (g t).holdsSlot <;>
    simp [List.countP_append, ht, hg] <;> omega

/-- Without a task, the count is less by what it holds. -/
theorem held_filter (hnodup : (tasks.map Task.job).Nodup) (ht : t ∈ tasks) :
    held (tasks.filter (·.job != t.job)) + t.holdsSlot.toNat = held tasks := by
  obtain ⟨before, after, hsplit, -, hothers⟩ := update_of_mem hnodup ht id
  rw [hothers, hsplit]
  unfold held
  cases ht : t.holdsSlot <;> simp [List.countP_append, ht]
  omega

end Updates

namespace Pipeline

variable {p p' : Pipeline} {t t₀ : Task} {n : Nat} {b : Bool}

/-! ## The balance -/

/-- The tasks that were called to slots and have not come yet wait to be let in. -/
def Called (p : Pipeline) (s : Slots) : Prop :=
  ∀ job ∈ s.called, ∃ u ∈ p.tasks, u.job = job ∧ u.stage = .waiting

/-- Every slot is free or held by one task. -/
structure Balanced (n : Nat) (p : Pipeline) : Prop where
  nodup : (p.tasks.map Task.job).Nodup
  fits : ∀ u ∈ p.tasks, u.SlotFits
  slots : ∃ s, p.slots = some s ∧ s.free + held p.tasks = n ∧ p.Called s

/-- A task has its turn. Its entry in the table is still `t₀`, and `b` tells whether it has a slot
now. -/
structure Turning (n : Nat) (p : Pipeline) (t₀ : Task) (b : Bool) : Prop where
  nodup : (p.tasks.map Task.job).Nodup
  queueing : p.Queueing
  outside : t₀.job ∉ p.line
  mem : t₀ ∈ p.tasks
  fits : ∀ u ∈ p.tasks, u.job ≠ t₀.job → u.SlotFits
  slots : ∃ s, p.slots = some s ∧
    s.free + held p.tasks + b.toNat = n + t₀.holdsSlot.toNat ∧ p.Called s ∧ t₀.job ∉ s.called

theorem line_of_slots {s : Slots} (h : p.slots = some s) : p.line = s.line := by
  unfold line
  rw [h]
  rfl

theorem tasks_putTask (p : Pipeline) (t : Task) :
    (p.putTask t).tasks = withEntry p.tasks t.job fun _ => t := rfl

/-- Tasks and slots are not affected by a move of a job. -/
theorem unmoved_move (p : Pipeline) (job : String) (target : JobStatus) (m : String)
    (downloadName : Option String) : (p.move job target m downloadName).tasks = p.tasks ∧
      (p.move job target m downloadName).slots = p.slots := by
  unfold move
  split <;> exact ⟨rfl, rfl⟩

theorem unmoved_fail (p : Pipeline) (job m : String) :
    (p.fail job m).tasks = p.tasks ∧ (p.fail job m).slots = p.slots := by
  unfold fail
  split_ifs
  · exact ⟨rfl, rfl⟩
  · exact unmoved_move ..

/-- A task has a new entry that makes the slots balance. -/
theorem balanced_putTask (hnodup : (p.tasks.map Task.job).Nodup) (hmem : t₀ ∈ p.tasks)
    (hjob : t.job = t₀.job) (hothers : ∀ u ∈ p.tasks, u.job ≠ t₀.job → u.SlotFits)
    (hfits : t.SlotFits) {s : Slots} (hs : p.slots = some s)
    (hbalance : s.free + held p.tasks + t.holdsSlot.toNat = n + t₀.holdsSlot.toNat)
    (hcalled : p.Called s) (hwaiting : t₀.job ∈ s.called → t.stage = .waiting) :
    Balanced n (p.putTask t) := by
  have htasks := tasks_putTask p t
  rw [hjob] at htasks
  refine ⟨?_, fun u hu => ?_, s, hs, ?_, fun job hmem' => ?_⟩
  · rw [htasks, jobs_withEntry _ fun _ _ => hjob]
    exact hnodup
  · rw [htasks] at hu
    rcases mem_withEntry hnodup hmem hu with rfl | ⟨hu, hne⟩
    · exact hfits
    · exact hothers u hu hne
  · have hheld := held_withEntry hnodup hmem fun _ => t
    rw [htasks]
    omega
  · obtain ⟨u, hu, rfl, hstage⟩ := hcalled job hmem'
    rw [htasks]
    by_cases hne : u.job = t₀.job
    · exact ⟨t, List.mem_map.mpr ⟨t₀, hmem, by simp⟩, hjob.trans hne.symm, hwaiting (hne ▸ hmem')⟩
    · exact ⟨u, mem_withEntry_of_ne hu hne, rfl, hstage⟩

theorem call_with_slots (p : Pipeline) (slots : Option Slots) (r : Slots × Option String) :
    ({ p with slots } : Pipeline).call r = p.call r := by
  unfold call
  cases r.2 <;> rfl

namespace Turning

/-- What a turn does apart from tasks and slots does not matter. -/
theorem of_eq (h : Turning n p t₀ b) (htasks : p'.tasks = p.tasks) (hslots : p'.slots = p.slots) :
    Turning n p' t₀ b := by
  have hline : p'.line = p.line := by
    unfold line
    rw [hslots]
  refine ⟨htasks ▸ h.nodup, h.queueing.of_frame (by rw [hline]) fun j _ => ?_, hline ▸ h.outside,
    htasks ▸ h.mem, htasks ▸ h.fits, ?_⟩
  · unfold standing task?
    rw [htasks]
  · obtain ⟨s, hs, hbalance, hcalled⟩ := h.slots
    refine ⟨s, hslots.trans hs, by rwa [htasks], ?_⟩
    unfold Called
    rwa [htasks]

theorem move (h : Turning n p t₀ b) (job : String) (target : JobStatus) (m : String)
    (downloadName : Option String) : Turning n (p.move job target m downloadName) t₀ b :=
  h.of_eq (unmoved_move ..).1 (unmoved_move ..).2

theorem fail (h : Turning n p t₀ b) (job m : String) : Turning n (p.fail job m) t₀ b :=
  h.of_eq (unmoved_fail ..).1 (unmoved_fail ..).2

/-- The turn ends and the task has a new entry. -/
theorem putTask (h : Turning n p t₀ b) (hjob : t.job = t₀.job) (hholds : t.holdsSlot = b)
    (hfits : t.SlotFits) : Balanced n (p.putTask t) := by
  obtain ⟨s, hs, hbalance, hcalled, hnot⟩ := h.slots
  exact balanced_putTask h.nodup h.mem hjob h.fits hfits hs (hholds ▸ hbalance) hcalled
    fun hmem => absurd hmem hnot

theorem hand (h : Turning n p t₀ true) (hjob : t.job = t₀.job) (hholds : t.holdsSlot = true)
    (work : Work) (stage : Stage) (hstage : stage.isInside = true) :
    Balanced n (p.hand t work stage) := by
  rw [hand_eq]
  have hcalls : Turning n { p with calls := p.calls ++ [{ job := t.job, work }] } t₀ true :=
    h.of_eq rfl rfl
  exact hcalls.putTask (t := { t with stage, signal := none }) hjob hholds
    (.of_eq (Stage.slot?_of_isInside hstage _) hholds)

/-- A slot is taken or given back by the task that has its turn. -/
theorem with_slots (h : Turning n p t₀ b) {s s' : Slots} {b' : Bool} (hs : p.slots = some s)
    (hline : s'.line = s.line) (hcalled : s'.called = s.called)
    (hfree : s'.free + b'.toNat = s.free + b.toNat) :
    Turning n { p with slots := some s' } t₀ b' := by
  have hsame : line { p with slots := some s' } = p.line := hline.trans (line_of_slots hs).symm
  refine ⟨h.nodup, h.queueing.of_frame (by rw [hsame]) fun j _ => rfl, hsame ▸ h.outside, h.mem,
    h.fits, s', rfl, ?_, ?_⟩
  · obtain ⟨_, hs', hbalance, -⟩ := h.slots
    cases hs.symm.trans hs'
    show s'.free + held p.tasks + b'.toNat = _
    omega
  · obtain ⟨_, hs', -, hwaits, hnot⟩ := h.slots
    cases hs.symm.trans hs'
    unfold Called
    rw [hcalled]
    exact ⟨hwaits, hnot⟩

/-- Who is in line waits and has no slot. -/
theorem exists_idle (h : Turning n p t₀ b) {job : String} (hjob : job ∈ p.line) :
    ∃ u ∈ p.tasks, u.job = job ∧ u.job ≠ t₀.job ∧ u.stage = .waiting ∧ u.holdsSlot = false := by
  obtain ⟨_, hu, hstage, hsignal⟩ := h.queueing.waits job hjob
  obtain ⟨u, htask, rfl⟩ := Option.map_eq_some_iff.mp hu
  have hmem : u ∈ p.tasks := List.mem_of_find?_eq_some htask
  have hujob : u.job = job := job_of_task? htask
  have hne : u.job ≠ t₀.job := fun heq => h.outside (heq ▸ hujob ▸ hjob)
  refine ⟨u, hmem, hujob, hne, hstage, h.fits u hmem hne false ?_⟩
  rw [show u.stage = .waiting from hstage, show u.signal = none from hsignal]
  rfl

/-- The first in line may be called to a slot: it has that from now on. -/
theorem callNext (h : Turning n p t₀ b) {s : Slots} (hs : p.slots = some s) :
    Turning n (p.call s.callNext) t₀ b := by
  have hconfined : Confined (fun _ _ => True) t₀.job p (p.call s.callNext) :=
    (Confined.refl h.queueing).callNext hs rfl
  obtain ⟨_, hs', hbalance, hcalled, hnot⟩ := h.slots
  cases hs.symm.trans hs'
  rcases callNext_eq s with hnone | ⟨next, line, hline, hfree, hnext⟩
  · rw [hnone]
    exact h.of_eq rfl hs.symm
  · have hfirst : next ∈ p.line := by
      rw [line_of_slots hs, hline]
      exact List.mem_cons_self
    obtain ⟨u, hu, rfl, hne, hstage, hidle⟩ := h.exists_idle hfirst
    have htasks : (p.call s.callNext).tasks = withEntry p.tasks u.job Task.called := by
      rw [hnext]
      rfl
    refine ⟨?_, hconfined.queueing, hconfined.not_mem h.outside, ?_, ?_,
      ⟨s.free - 1, line, s.called ++ [u.job]⟩, by rw [hnext]; rfl, ?_, ?_, ?_⟩
    · rw [htasks, jobs_withEntry (g := Task.called) _ fun _ hv => hv]
      exact h.nodup
    · rw [htasks]
      exact mem_withEntry_of_ne h.mem hne.symm
    · intro v hv hvne
      rw [htasks] at hv
      rcases mem_withEntry h.nodup hu hv with rfl | ⟨hv, -⟩
      · refine .of_eq (b := true) ?_ rfl
        rw [show u.called.stage = .waiting from hstage]
        rfl
      · exact h.fits v hv hvne
    · have hheld := held_withEntry h.nodup hu Task.called
      rw [hidle, ← htasks] at hheld
      simp only [Task.called, Bool.toNat_true, Bool.toNat_false] at hheld ⊢
      omega
    · have hwaiting : ∀ v ∈ p.tasks, v.stage = .waiting →
          ∃ w ∈ (p.call s.callNext).tasks, w.job = v.job ∧ w.stage = .waiting := by
        intro v hv hvstage
        rw [htasks]
        refine ⟨_, List.mem_map_of_mem hv, ?_, ?_⟩
        · split_ifs <;> rfl
        · split_ifs <;> exact hvstage
      intro job hjob
      rcases List.mem_append.mp hjob with hjob | hjob
      · obtain ⟨v, hv, rfl, hvstage⟩ := hcalled job hjob
        exact hwaiting v hv hvstage
      · cases List.mem_singleton.mp hjob
        exact hwaiting u hu hstage
    · simpa [hne.symm] using hnot

/-- The slot of a task goes to the next one in line, or is free again. -/
theorem release (h : Turning n p t₀ b) (hholds : t.holdsSlot = b) :
    Turning n (p.releaseSlot t) t₀ false := by
  subst hholds
  obtain ⟨s, hs, -⟩ := h.slots
  unfold releaseSlot
  cases hholds : t.holdsSlot with
  | false =>
    rw [hholds] at h
    exact h
  | true =>
    rw [hholds] at h
    rw [hs]
    -- the slot is free for a moment before the next one has it
    have hfreed : Turning n { p with slots := some { s with free := s.free + 1 } } t₀ false :=
      h.with_slots hs rfl rfl (by simp)
    have hgiven := hfreed.callNext rfl
    rwa [call_with_slots] at hgiven

/-- The task ends, whatever the cause. -/
theorem conclude (h : Turning n p t₀ b) (hjob : t.job = t₀.job) (hholds : t.holdsSlot = b)
    (cause : Option GivingUp) : Balanced n (p.conclude t cause) := by
  have hreleased := h.release hholds
  have hended : ∀ {q : Pipeline} (cancelled : Bool), Turning n q t₀ false → Balanced n
      (q.putTask { t with stage := .ended cancelled, signal := none, holdsSlot := false }) :=
    fun cancelled hq => hq.putTask hjob rfl (.of_eq rfl rfl)
  match cause with
  | none => exact hended false hreleased
  | some .cancelled => exact hended true (hreleased.fail ..)
  | some (.failed m) => exact hended false (hreleased.fail ..)

theorem cleanUp (h : Turning n p t₀ true) (hjob : t.job = t₀.job) (hholds : t.holdsSlot = true)
    (cause : Option GivingUp) : Balanced n (p.cleanUp t cause) :=
  h.hand hjob hholds .remove (.removing cause) rfl

/-- The task starts to work on its job, or ends at once. -/
theorem execute (h : Turning n p t₀ true) (hjob : t.job = t₀.job) (hholds : t.holdsSlot = true) :
    Balanced n (p.execute t) := by
  have hmoved := h.move t.job .processing processingMessage none
  unfold Pipeline.execute
  simp only
  split
  · exact hmoved.conclude hjob hholds _
  · rename_i area _
    have hplaced : Turning n { p.move t.job .processing processingMessage with
        areas := putMember (p.move t.job .processing processingMessage).areas t.job area } t₀ true :=
      hmoved.of_eq rfl rfl
    exact hplaced.hand hjob hholds .create .creating rfl

/-- The task goes on with its files, or with what comes after them. -/
theorem goOn (h : Turning n p t₀ true) (hjob : t.job = t₀.job) (hholds : t.holdsSlot = true)
    (files : List (String × String)) : Balanced n (p.goOn t files) := by
  unfold Pipeline.goOn
  match files with
  | (path, text) :: rest => exact h.hand hjob hholds _ _ rfl
  | [] =>
    cases (p.setup.generate t.request).failure with
    | some m => exact h.cleanUp hjob hholds _
    | none => exact h.hand hjob hholds _ _ rfl

/-- The task waits for its writer. -/
theorem settle (h : Turning n p t₀ true) (hjob : t.job = t₀.job) (hholds : t.holdsSlot = true) :
    Balanced n (p.settle t) :=
  h.putTask hjob hholds (.of_eq rfl hholds)

end Turning

/-! ## Turns -/

namespace Balanced

/-- It makes no difference who is in line. -/
theorem with_line (h : Balanced n p) {s : Slots} (hs : p.slots = some s) (line : List String) :
    Balanced n { p with slots := some { s with line } } := by
  obtain ⟨_, hs', hbalance, hcalled⟩ := h.slots
  cases hs.symm.trans hs'
  exact ⟨h.nodup, h.fits, _, rfl, hbalance, hcalled⟩

section Turn

variable {signal : Signal} (h : Balanced n p) (hq : p.Queueing) {i : String}
  (ht : p.task? i = some t) (hsignal : t.signal = some signal)
include h hq ht hsignal

/-- A task that has its turn is called no more. -/
theorem come : ∃ s, p.slots = some s ∧
    Turning n { p with slots := some (s.come t.job) } t t.holdsSlot := by
  have hjob : t.job = i := job_of_task? ht
  have houtside : t.job ∉ p.line := by
    rw [hjob]
    exact hq.not_mem ht (.inl (by rw [hsignal]; rfl))
  obtain ⟨s, hs, hbalance, hcalled⟩ := h.slots
  have hline : line { p with slots := some (s.come t.job) } = p.line := (line_of_slots hs).symm
  refine ⟨s, hs, h.nodup, hq.of_frame (by rw [hline]) fun _ _ => rfl, hline ▸ houtside,
    List.mem_of_find?_eq_some ht, fun u hu _ => h.fits u hu, s.come t.job, rfl, ?_, ?_, ?_⟩
  · show s.free + held p.tasks + _ = _
    omega
  · exact fun job hmem => hcalled job (List.mem_of_mem_filter hmem)
  · simp [Slots.come]

/-- Only a task that waits for a slot can have been called to one. -/
theorem turning (hstage : t.stage ≠ .waiting) : Turning n p t t.holdsSlot := by
  obtain ⟨s, hs, hcome⟩ := h.come hq ht hsignal
  obtain ⟨_, hs', -, hcalled⟩ := h.slots
  cases hs.symm.trans hs'
  have hnot : t.job ∉ s.called := by
    intro hmem
    obtain ⟨u, hu, hujob, hustage⟩ := hcalled t.job hmem
    have hsame := List.inj_on_of_nodup_map h.nodup hu (List.mem_of_find?_eq_some ht) hujob
    exact hstage (hsame ▸ hustage)
  have hothers : ∀ job ∈ s.called, job ≠ t.job := by
    rintro job hmem rfl
    exact hnot hmem
  have hsame : s.come t.job = s := by
    unfold Slots.come
    rw [List.filter_eq_self.mpr fun job hmem => decide_eq_true (hothers job hmem)]
  rw [hsame] at hcome
  exact hcome.of_eq rfl hs

theorem inside (hinside : t.stage.isInside = true) : Turning n p t true ∧ t.holdsSlot = true := by
  have hholds := (h.fits t (List.mem_of_find?_eq_some ht)).holds hinside
  have hturn := h.turning hq ht hsignal (by rintro heq; rw [heq] at hinside; cases hinside)
  exact ⟨hholds ▸ hturn, hholds⟩

theorem yieldToCancel : Balanced n (p.yieldToCancel t) := by
  have hturn := h.turning hq ht hsignal
  have hinside := h.inside hq ht hsignal
  unfold Pipeline.yieldToCancel
  cases hstage : t.stage with
  | scheduled =>
    have hidle : t.holdsSlot = false :=
      h.fits t (List.mem_of_find?_eq_some ht) false (by rw [hstage]; rfl)
    rw [hstage] at hturn
    exact (hturn nofun).putTask rfl rfl (.of_eq rfl hidle)
  | waiting =>
    obtain ⟨s, hs, hcome⟩ := h.come hq ht hsignal
    have hleft : p.leaveLine t = { p with slots := some (s.come t.job) } := by
      unfold leaveLine
      rw [hs]
      rfl
    simp only [hleft]
    exact hcome.conclude rfl rfl _
  | packaging =>
    rw [hstage] at hinside
    exact (hinside rfl).1.settle rfl (hinside rfl).2
  | creating | removing _ =>
    rw [hstage] at hturn
    exact (hturn nofun).conclude rfl rfl _
  | writing _ | settling | discarding =>
    rw [hstage] at hinside
    exact (hinside rfl).1.cleanUp rfl (hinside rfl).2 _
  | ended _ => exact h

theorem yieldToError (e : PackageError) : Balanced n (p.yieldToError t e) := by
  have hturn := h.turning hq ht hsignal
  have hinside := h.inside hq ht hsignal
  unfold Pipeline.yieldToError
  cases hstage : t.stage with
  | settling =>
    rw [hstage] at hinside
    exact (hinside rfl).1.hand rfl (hinside rfl).2 _ _ rfl
  | creating | removing _ =>
    rw [hstage] at hturn
    exact (hturn nofun).conclude rfl rfl _
  | writing _ | packaging | discarding =>
    rw [hstage] at hinside
    exact (hinside rfl).1.cleanUp rfl (hinside rfl).2 _
  | scheduled | waiting | ended _ => exact h

/-- The task takes a slot, if one is free and nobody is before it. -/
theorem enter (hstage : t.stage = .scheduled) : Balanced n (p.enter t) := by
  have hidle : t.holdsSlot = false :=
    h.fits t (List.mem_of_find?_eq_some ht) false (by rw [hstage]; rfl)
  have hturn : Turning n p t false := hidle ▸ h.turning hq ht hsignal (by rw [hstage]; nofun)
  obtain ⟨s, hs, -⟩ := h.slots
  unfold Pipeline.enter
  rcases acquire_eq s t.job with ⟨hfree, hacquired⟩ | hjoined
  · simp only [hs, hacquired]
    have htook : Turning n { p with slots := some { s with free := s.free - 1 } } t true :=
      hturn.with_slots hs rfl rfl (by simp; omega)
    exact htook.execute (t := { t with holdsSlot := true }) rfl rfl
  · simp only [hs, hjoined]
    have hqueued := hturn.putTask (t := { t with stage := .waiting, signal := none }) rfl hidle
      (.of_eq rfl hidle)
    exact hqueued.with_line hs _

theorem proceed (hdone : t.signal = some (.done (.ok ()))) : Balanced n (p.proceed t) := by
  have hturn := h.turning hq ht hsignal
  have hinside := h.inside hq ht hsignal
  unfold Pipeline.proceed
  cases hstage : t.stage with
  | scheduled => exact h.enter hq ht hsignal hstage
  | waiting =>
    have hholds : t.holdsSlot = true :=
      h.fits t (List.mem_of_find?_eq_some ht) true (by rw [hstage, hdone]; rfl)
    obtain ⟨s, hs, hcome⟩ := h.come hq ht hsignal
    have hcalled := hcome.callNext rfl
    rw [call_with_slots, hholds] at hcalled
    simp only [takeSlot, hs]
    exact hcalled.execute rfl hholds
  | creating | writing _ =>
    rw [hstage] at hinside
    exact (hinside rfl).1.goOn rfl (hinside rfl).2 _
  | packaging =>
    rw [hstage] at hinside
    exact ((hinside rfl).1.move ..).cleanUp rfl (hinside rfl).2 _
  | settling =>
    rw [hstage] at hinside
    exact (hinside rfl).1.hand rfl (hinside rfl).2 _ _ rfl
  | discarding =>
    rw [hstage] at hinside
    exact (hinside rfl).1.cleanUp rfl (hinside rfl).2 _
  | removing _ =>
    rw [hstage] at hturn
    exact (hturn nofun).conclude rfl rfl _
  | ended _ => exact h

end Turn

end Balanced

/-- **Every turn keeps the balance.** -/
theorem balanced_resume (h : Balanced n p) (hq : p.Queueing) (i : String) :
    Balanced n (p.resume i) := by
  unfold resume
  cases ht : p.task? i with
  | none => exact h
  | some t =>
    cases hsignal : t.signal with
    | none => simpa only [hsignal] using h
    | some signal =>
      simp only [hsignal]
      match signal, hsignal with
      | .cancelled, hsignal => exact h.yieldToCancel hq ht hsignal
      | .done (.error e), hsignal => exact h.yieldToError hq ht hsignal e
      | .done (.ok ()), hsignal => exact h.proceed hq ht hsignal hsignal

/-! ## Other events -/

/-- What happens elsewhere does not matter. -/
theorem Balanced.of_eq (h : Balanced n p) (htasks : p'.tasks = p.tasks)
    (hslots : p'.slots = p.slots) : Balanced n p' := by
  obtain ⟨s, hs, hbalance, hcalled⟩ := h.slots
  refine ⟨htasks ▸ h.nodup, htasks ▸ h.fits, s, hslots.trans hs, by rwa [htasks], ?_⟩
  unfold Called
  rwa [htasks]

/-- A task is told something that does not change what it must hold. -/
theorem Balanced.tell (h : Balanced n p) (ht : t ∈ p.tasks) {signal : Signal}
    (hfits : ({ t with signal := some signal } : Task).SlotFits) :
    Balanced n (p.putTask { t with signal := some signal }) := by
  obtain ⟨s, hs, hbalance, hcalled⟩ := h.slots
  refine balanced_putTask (t := { t with signal := some signal }) h.nodup ht rfl
    (fun u hu _ => h.fits u hu) hfits hs (by show _ + t.holdsSlot.toNat = _; omega) hcalled ?_
  intro hmem
  obtain ⟨u, hu, hujob, hstage⟩ := hcalled t.job hmem
  exact List.inj_on_of_nodup_map h.nodup hu ht hujob ▸ hstage

theorem balanced_cancel (h : Balanced n p) (i : String) : Balanced n (p.cancel i) := by
  unfold cancel
  cases ht : p.task? i with
  | none => exact h
  | some t =>
    have hmem : t ∈ p.tasks := List.mem_of_find?_eq_some ht
    by_cases hended : t.isEnded = true
    · simp only [cancelTask, if_pos hended]
      exact h
    · simp only [cancelTask_eq p hended]
      obtain ⟨s, hs, -⟩ := h.slots
      have hwithdrawn : Balanced n (p.withdraw t) := by
        refine (h.with_line hs (s.line.filter (· ≠ t.job))).of_eq rfl ?_
        unfold withdraw
        rw [hs]
        rfl
      exact hwithdrawn.tell hmem (h.fits t hmem).cancelled

theorem balanced_shutdown (h : Balanced n p) : Balanced n p.shutdown := by
  unfold shutdown
  generalize p.tasks.map (·.job) = jobs
  induction jobs generalizing p with
  | nil => exact h
  | cons job jobs ih => exact ih (balanced_cancel h job)

theorem balanced_finish (h : Balanced n p) (k : Nat) : Balanced n (p.finish k) := by
  have hdeliver : ∀ {q : Pipeline}, Balanced n q → ∀ c result, Balanced n (q.deliver c result) := by
    intro q hq c result
    unfold deliver
    cases ht : q.task? c.job with
    | none => exact hq
    | some t =>
      simp only
      split_ifs with hwaits
      · rw [Bool.and_eq_true] at hwaits
        have hmem : t ∈ q.tasks := List.mem_of_find?_eq_some ht
        have hinside := Stage.isInside_of_awaits hwaits.2
        exact hq.tell hmem
          (.of_eq (Stage.slot?_of_isInside hinside _) ((hq.fits t hmem).holds hinside))
      · exact hq
  unfold finish
  split
  · exact h
  · split
    · exact h
    · simp only
      split_ifs
      · refine hdeliver ?_ _ _
        exact h.of_eq rfl rfl
      · exact h

/-- A task leaves the table after it has given its slot back. -/
theorem balanced_retire (h : Balanced n p) (i : String) : Balanced n (p.retire i) := by
  unfold retire
  cases ht : p.task? i with
  | none => exact h
  | some t =>
    simp only
    split
    · rename_i cancelled hstage
      have hjob : t.job = i := job_of_task? ht
      subst hjob
      have hmem : t ∈ p.tasks := List.mem_of_find?_eq_some ht
      have hidle : t.holdsSlot = false := h.fits t hmem false (by rw [hstage]; rfl)
      have hgone : Balanced n { p with tasks := p.tasks.filter (·.job != t.job) } := by
        obtain ⟨s, hs, hbalance, hcalled⟩ := h.slots
        refine ⟨h.nodup.sublist (List.filter_sublist.map _),
          fun u hu => h.fits u (List.mem_of_mem_filter hu), s, hs, ?_, fun job hcall => ?_⟩
        · have hheld := held_filter h.nodup hmem
          rw [hidle] at hheld
          simp only [Bool.toNat_false] at hheld
          show s.free + held (p.tasks.filter (·.job != t.job)) = n
          omega
        · obtain ⟨u, hu, rfl, hwaiting⟩ := hcalled job hcall
          have hne : u.job ≠ t.job := by
            intro heq
            have hsame := List.inj_on_of_nodup_map h.nodup hu hmem heq
            rw [hsame, hstage] at hwaiting
            cases hwaiting
          exact ⟨u, List.mem_filter.mpr ⟨hu, by simpa using hne⟩, rfl, hwaiting⟩
      split_ifs
      · exact hgone.of_eq (unmoved_fail ..).1 (unmoved_fail ..).2
      · exact hgone
    · exact h

/-- A task that is new holds nothing. -/
theorem balanced_submit (h : Balanced n p) (hc : p.Consistent) (job : String) (r : Request) :
    Balanced n (p.submit job r) := by
  rcases submit_cases hc job r with hsame | ⟨hvalid, hnew, htask⟩
  · rw [hsame]
    exact h
  · rw [submit_of_accepted hvalid hnew]
    have hfresh : job ∉ p.tasks.map Task.job := by
      rintro hmem
      obtain ⟨u, hu, rfl⟩ := List.mem_map.mp hmem
      have hfind : p.task? u.job = none := Option.map_eq_none_iff.mp htask
      exact List.find?_eq_none.mp hfind u hu (beq_self_eq_true u.job)
    obtain ⟨s, hs, hbalance, hcalled⟩ := h.slots
    refine ⟨?_, fun u hu => ?_, s, hs, ?_, fun j hj => ?_⟩
    · rw [List.map_append, List.nodup_append']
      exact ⟨h.nodup, List.nodup_singleton _, List.disjoint_singleton.mpr hfresh⟩
    · rcases List.mem_append.mp hu with hu | hu
      · exact h.fits u hu
      · cases List.mem_singleton.mp hu
        exact .of_eq rfl rfl
    · unfold held at hbalance ⊢
      rw [List.countP_append]
      exact hbalance
    · obtain ⟨u, hu, hjob, hwaiting⟩ := hcalled j hj
      exact ⟨u, List.mem_append_left _ hu, hjob, hwaiting⟩

/-! ## Histories -/

/-- **Every event keeps the balance.** -/
theorem balanced_step (h : Balanced n p) (hc : p.Consistent) (e : Event) :
    Balanced n (p.step e) := by
  cases e with
  | submit job r => exact balanced_submit h hc job r
  | resume i => exact balanced_resume h hc.queueing i
  | retire i => exact balanced_retire h i
  | begin k => exact h.of_eq rfl rfl
  | finish k => exact balanced_finish h k
  | drop k =>
    show Balanced n (p.drop k)
    unfold drop
    split
    · split_ifs
      · exact h
      · exact h.of_eq rfl rfl
    · exact h
  | cancel i => exact balanced_cancel h i
  | shutdown => exact balanced_shutdown h

theorem balanced_start {setup : PipelineSetup} (hlimit : setup.limit = some n)
    (tree : FileTree FileBody) : Balanced n (start setup tree) := by
  have hnone : ∀ u ∈ (start setup tree).tasks, u.SlotFits := fun u hu => absurd hu List.not_mem_nil
  refine ⟨List.nodup_nil, hnone, { free := n }, ?_, rfl,
    fun job hjob => absurd hjob List.not_mem_nil⟩
  unfold start
  rw [hlimit]
  rfl

theorem balanced_run (h : Balanced n p) (hc : p.Consistent) (events : List Event) :
    Balanced n (p.run events) := by
  induction events generalizing p with
  | nil => exact h
  | cons e events ih => exact ih (balanced_step h hc e) (consistent_step hc e)

/-- No two records are of one job. -/
theorem nodup_ids_step (h : p.Consistent) (hnodup : (p.registry.jobs.map Job.id).Nodup)
    (e : Event) : ((p.step e).registry.jobs.map Job.id).Nodup := by
  rw [ids_step h, List.nodup_append']
  refine ⟨hnodup, ?_, fun id hid hnew => ?_⟩
  · cases e.accepted? with
    | none => exact List.nodup_nil
    | some x => exact (List.nodup_singleton x.1).filter _
  · simpa [hid] using (List.mem_filter.mp hnew).2

theorem nodup_ids_run (h : p.Consistent) (hnodup : (p.registry.jobs.map Job.id).Nodup)
    (events : List Event) : ((p.run events).registry.jobs.map Job.id).Nodup := by
  induction events generalizing p with
  | nil => exact hnodup
  | cons e events ih => exact ih (consistent_step h e) (nodup_ids_step h hnodup e)

theorem isInside_of_fits {stage : Stage} (h : stage.fits .processing = true) :
    stage.isInside = true := by
  cases stage with
  | removing cause => rfl
  | ended cancelled => cases cancelled <;> cases h
  | scheduled | waiting => cases h
  | _ => rfl

/-- The jobs that are processed are among those whose tasks are inside. -/
theorem processing_subset_inside (h : p.Consistent)
    (hnodup : (p.registry.jobs.map Job.id).Nodup) :
    (p.registry.jobs.filter (·.status = .processing)).map Job.id ⊆
      (p.tasks.filter (·.stage.isInside)).map Task.job := by
  intro id hid
  obtain ⟨r, hr, rfl⟩ := List.mem_map.mp hid
  obtain ⟨hr, hstatus⟩ := List.mem_filter.mp hr
  rw [decide_eq_true_eq] at hstatus
  have hget := Registry.get?_of_mem hnodup hr
  obtain ⟨t, ht⟩ := exists_task_of_pending h hget (by rw [hstatus]; nofun)
  have hu : (p.standing r.id).task = some t.bare := congrArg (Option.map Task.bare) ht
  have hfits := (h.sound r.id).fits t.bare r hu hget
  rw [hstatus] at hfits
  refine List.mem_map.mpr ⟨t, List.mem_filter.mpr ⟨List.mem_of_find?_eq_some ht, ?_⟩,
    job_of_task? ht⟩
  exact isInside_of_fits hfits

/-- There are at most as many tasks inside as slots are held. -/
theorem Balanced.inside_le_held (h : Balanced n p) :
    (p.tasks.filter (·.stage.isInside)).length ≤ held p.tasks := by
  rw [← List.countP_eq_length_filter]
  exact List.countP_mono_left fun t ht hinside => (h.fits t ht).holds hinside

/-- When no task is left, nobody is in line or called, and every slot is free. -/
theorem Balanced.slots_of_no_tasks (h : Balanced n p) (hq : p.Queueing) (hnone : p.tasks = []) :
    p.slots = some { free := n } := by
  obtain ⟨s, hs, hbalance, hcalled⟩ := h.slots
  have hline : s.line = [] := by
    rw [← line_of_slots hs]
    refine List.eq_nil_iff_forall_not_mem.mpr fun job hjob => ?_
    obtain ⟨u, hu, -⟩ := hq.waits job hjob
    obtain ⟨t, ht, -⟩ := Option.map_eq_some_iff.mp hu
    have hmem : t ∈ p.tasks := List.mem_of_find?_eq_some ht
    rw [hnone] at hmem
    cases hmem
  have hnobody : s.called = [] := by
    refine List.eq_nil_iff_forall_not_mem.mpr fun job hjob => ?_
    obtain ⟨u, hu, -⟩ := hcalled job hjob
    rw [hnone] at hu
    cases hu
  have hfree : s.free = n := by
    rw [hnone] at hbalance
    exact hbalance
  obtain ⟨free, line, called⟩ := s
  rw [hs, show free = n from hfree, show line = [] from hline, show called = [] from hnobody]

/-- **At most `n` jobs are worked on at once, and no slot is lost.** With a limit of `n`, in every
state that a history reaches:

1. at most `n` jobs are reported as processed;
2. at most `n` tasks are inside;
3. free and held slots are `n` together;
4. a task that is inside holds a slot, one that has not started or is over holds none;
5. when no task is left, all `n` slots are free and nobody is in line or called. -/
theorem at_most_limit {setup : PipelineSetup} {n : Nat} (hlimit : setup.limit = some n)
    (tree : FileTree FileBody) (events : List Event) :
    let p := (start setup tree).run events
    (p.registry.jobs.filter (·.status = .processing)).length ≤ n ∧
    (p.tasks.filter (·.stage.isInside)).length ≤ n ∧
    (∃ s, p.slots = some s ∧ s.free + (p.tasks.filter (·.holdsSlot)).length = n) ∧
    (∀ t ∈ p.tasks, (t.stage.isInside = true → t.holdsSlot = true) ∧
      (t.stage = .scheduled ∨ t.isEnded = true → t.holdsSlot = false)) ∧
    (p.tasks = [] → p.slots = some { free := n }) := by
  intro p
  have hc : p.Consistent := consistent_history setup tree events
  have h : Balanced n p :=
    balanced_run (balanced_start hlimit tree) (consistent_start setup tree) events
  have hnodup : (p.registry.jobs.map Job.id).Nodup :=
    nodup_ids_run (consistent_start setup tree) List.nodup_nil events
  obtain ⟨s, hs, hbalance, -⟩ := h.slots
  have hheld : held p.tasks = (p.tasks.filter (·.holdsSlot)).length := List.countP_eq_length_filter
  have hinside : (p.tasks.filter (·.stage.isInside)).length ≤ n :=
    Nat.le_trans h.inside_le_held (by omega)
  refine ⟨?_, hinside, ⟨s, hs, by omega⟩, fun t ht => ⟨(h.fits t ht).holds, ?_⟩,
    h.slots_of_no_tasks hc.queueing⟩
  · -- no two of these jobs are the same, so there are as many tasks
    have hapart : ((p.registry.jobs.filter (·.status = .processing)).map Job.id).Nodup :=
      hnodup.sublist (List.filter_sublist.map Job.id)
    have hlength := (List.subperm_of_subset hapart (processing_subset_inside hc hnodup)).length_le
    rw [List.length_map, List.length_map] at hlength
    exact Nat.le_trans hlength hinside
  · rintro (hstage | hended)
    · exact h.fits t ht false (by rw [hstage]; rfl)
    · exact h.fits t ht false (Task.slot?_of_isEnded hended _)

/-- With one slot, the second job waits while the first is worked on; when the first is cancelled
the second is called, and in the end the slot is free. -/
theorem at_most_limit_one :
    let setup : PipelineSetup :=
      { stagingRoot := ["", "tmp"], packageDirectory := ["", "out"], limit := some 1 }
    let request : Request := { tables := [⟨"order", [{ name := "id" }], none⟩] }
    let busy : List Event :=
      [.submit "1" request, .submit "2" request, .resume "1", .resume "2"]
    let passed : List Event := busy ++ [.cancel "1", .resume "1", .retire "1", .resume "2"]
    let closed : List Event := passed ++ [.shutdown, .resume "2", .retire "2"]
    let p := (start setup {}).run
    (p busy).registry.jobs.map Job.status = [.processing, .queued] ∧
    (p passed).registry.jobs.map Job.status = [.error, .processing] ∧
    ((p passed).tasks.filter (·.stage.isInside)).length ≤ 1 ∧
    (p closed).registry.jobs.map Job.status = [.error, .error] ∧
    (p closed).slots = some { free := 1 } := by
  intro setup request busy passed closed p
  have hlimit : setup.limit = some 1 := rfl
  obtain ⟨-, hinside, -⟩ := at_most_limit hlimit {} passed
  obtain ⟨-, -, -, -, hfree⟩ := at_most_limit hlimit {} closed
  exact ⟨by decide, by decide, hinside, by decide, hfree (by decide)⟩

end Pipeline

end EntityScaffold
