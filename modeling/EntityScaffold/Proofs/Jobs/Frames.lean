import EntityScaffold.Proofs.Jobs.Standing

/-!
# Changes that concern one job

The pipeline moves a job by a few operations: another record, another task, a call that is handed
out, a slot that is left. Each of them is told by what it makes of every job's `Standing`.

* `Pipeline.line`, `Pipeline.Queueing`: the jobs that wait for a slot are those in line.
* `Pipeline.Kept`: no job is new, no move was refused, and those in line still wait.
* `Pipeline.Confined`: a change that concerns one job, apart from calling others to slots.

Results:
* `find?_update`: replacing what has a key changes what is found under that key.
* `update_of_mem`: where keys do not repeat, it changes one element.
* `Pipeline.standing_hand_self`, `standing_move_self`, `standing_fail_self`: an operation on the
  pipeline is the operation of that name on the job's `Standing`.
* `Pipeline.Confined.callNext`: leaving a slot calls at most the first in line.
-/

namespace EntityScaffold

open Standing

/-- Replacing what has a key changes what is found under that key. -/
theorem find?_update {α : Type} (l : List α) (key : α → String) (k j : String) (g : α → α)
    (hg : ∀ u, key u = k → key (g u) = k) :
    (l.map fun u => if key u == k then g u else u).find? (fun u => key u == j) =
      if j = k then (l.find? fun u => key u == k).map g else l.find? fun u => key u == j := by
  have hkey : (fun u => key u == j) ∘ (fun u => if key u == k then g u else u) =
      fun u => key u == j := by
    funext u
    by_cases h : key u = k <;> simp [h, hg]
  rw [List.find?_map, hkey]
  cases hfind : l.find? fun u => key u == j with
  | none =>
    split_ifs with h
    · subst h
      rw [hfind]
      rfl
    · rfl
  | some u =>
    have hu : key u = j := by simpa using List.find?_some hfind
    split_ifs with h
    · subst h
      rw [hfind]
      simp [hu]
    · simp [hu, h]

/-- Where keys do not repeat, replacing what has a key changes one element, and leaving it out
leaves the others. -/
theorem update_of_mem {α : Type} {l : List α} {key : α → String} (hnodup : (l.map key).Nodup)
    {u : α} (hu : u ∈ l) (g : α → α) :
    ∃ before after, l = before ++ u :: after ∧
      (l.map fun v => if key v == key u then g v else v) = before ++ g u :: after ∧
      (l.filter fun v => key v != key u) = before ++ after := by
  obtain ⟨before, after, rfl⟩ := List.append_of_mem hu
  rw [List.map_append, List.map_cons, List.nodup_middle, List.nodup_cons, List.mem_append,
    not_or] at hnodup
  have hne : ∀ {part : List α}, key u ∉ part.map key → ∀ v ∈ part, key v ≠ key u :=
    fun hpart v hv heq => hpart (heq ▸ List.mem_map_of_mem hv)
  have hbefore := hne hnodup.1.1
  have hafter := hne hnodup.1.2
  have hkept : ∀ part : List α, (∀ v ∈ part, key v ≠ key u) →
      (part.map fun v => if key v == key u then g v else v) = part ∧
        (part.filter fun v => key v != key u) = part := by
    intro part hpart
    refine ⟨(List.map_congr_left fun v hv => ?_).trans (List.map_id part),
      List.filter_eq_self.mpr fun v hv => ?_⟩
    · simp [hpart v hv]
    · simp [hpart v hv]
  refine ⟨before, after, rfl, ?_, ?_⟩
  · rw [List.map_append, List.map_cons, (hkept before hbefore).1, (hkept after hafter).1]
    simp
  · rw [List.filter_append, List.filter_cons, (hkept before hbefore).2, (hkept after hafter).2]
    simp

/-! ## Records and tasks by name -/

namespace Registry

theorem id_of_get? {r : Registry} {id : String} {job : Job} (h : r.get? id = some job) :
    job.id = id := by
  simpa using List.find?_some h

theorem get?_replace (r : Registry) (job : Job) (id : String) :
    (r.replace job).get? id =
      if id = job.id then (r.get? job.id).map fun _ => job else r.get? id :=
  find?_update r.jobs Job.id job.id id (fun _ => job) fun _ _ => rfl

theorem get?_create (r : Registry) (id j : String) :
    (r.create id).get? j =
      (r.get? j).or (if id = j then some { id, message := queuedMessage } else none) := by
  unfold create get?
  rw [List.find?_append]
  by_cases h : id = j <;> simp [h]

theorem ids_replace (r : Registry) (job : Job) :
    (r.replace job).jobs.map Job.id = r.jobs.map Job.id := by
  unfold replace
  rw [List.map_map]
  refine List.map_congr_left fun j _ => ?_
  by_cases h : j.id = job.id <;> simp [h]

end Registry

namespace Pipeline

variable {p p' : Pipeline} {t : Task} {i j : String}

theorem job_of_task? (h : p.task? j = some t) : t.job = j := by
  simpa using List.find?_some h

theorem task?_putTask (p : Pipeline) (t : Task) (j : String) :
    (p.putTask t).task? j = if j = t.job then (p.task? t.job).map fun _ => t else p.task? j :=
  find?_update p.tasks Task.job t.job j (fun _ => t) fun _ _ => rfl

theorem standing_putTask_of_ne (h : j ≠ t.job) : (p.putTask t).standing j = p.standing j := by
  unfold standing
  rw [task?_putTask, if_neg h]
  rfl

theorem standing_putTask_self {u : Task} (hjob : t.job = j) (h : (p.standing j).task = some u) :
    (p.putTask t).standing j = { p.standing j with task := some t.bare } := by
  subst hjob
  obtain ⟨u, hu, rfl⟩ := Option.map_eq_some_iff.mp h
  unfold standing
  rw [task?_putTask, if_pos rfl, hu]
  rfl

theorem hand_eq (p : Pipeline) (t : Task) (work : Work) (stage : Stage) :
    p.hand t work stage =
      putTask { p with calls := p.calls ++ [{ job := t.job, work }] }
        { t with stage, signal := none } := rfl

theorem standing_hand_of_ne (work : Work) (stage : Stage) (h : j ≠ t.job) :
    (p.hand t work stage).standing j = p.standing j := by
  rw [hand_eq, standing_putTask_of_ne (t := { t with stage, signal := none }) h]
  have hb : (t.job == j) = false := beq_false_of_ne (Ne.symm h)
  simp [standing, List.filter_append, hb, task?]

theorem standing_hand_self {u : Task} (hjob : t.job = j) (h : (p.standing j).task = some u)
    (work : Work) (stage : Stage) :
    (p.hand t work stage).standing j = (p.standing j).hand t.bare work stage := by
  have hcalled : (standing { p with calls := p.calls ++ [{ job := t.job, work }] } j).task =
      some u := h
  rw [hand_eq, standing_putTask_self (t := { t with stage, signal := none }) hjob hcalled]
  simp [standing, Standing.hand, place, List.filter_append, Task.bare, hjob]

theorem standing_putArea_of_ne (area : StagingArea) (h : j ≠ i) :
    standing { p with areas := putMember p.areas i area } j = p.standing j := by
  have hb : (j == i) = false := beq_false_of_ne h
  simp [standing, lookup_putMember, hb, task?]

theorem standing_putArea_self (area : StagingArea) :
    standing { p with areas := putMember p.areas i area } i =
      { p.standing i with area := some area } := by
  simp [standing, lookup_putMember, task?]

theorem move_eq {r : Job} (hr : p.registry.get? j = some r) {target : JobStatus}
    (hmay : r.status.mayBecome target = true) (m : String) (downloadName : Option String) :
    p.move j target m downloadName =
      { p with registry := p.registry.replace ⟨r.id, target, m, downloadName⟩ } := by
  unfold move Registry.transition
  simp [hr, hmay]

theorem standing_move_of_ne (target : JobStatus) (m : String) (downloadName : Option String)
    (h : j ≠ i) : (p.move i target m downloadName).standing j = p.standing j := by
  unfold move Registry.transition
  cases hr : p.registry.get? i with
  | none => rfl
  | some r =>
    by_cases hmay : r.status.mayBecome target = true
    · have hne : j ≠ r.id := by
        rw [Registry.id_of_get? hr]
        exact h
      simp [standing, hmay, Registry.get?_replace, hne, task?]
    · simp only [hmay]
      rfl

theorem standing_move_self {r : Job} (hr : (p.standing j).record = some r) {target : JobStatus}
    (hmay : r.status.mayBecome target = true) (m : String) (downloadName : Option String) :
    (p.move j target m downloadName).standing j =
      (p.standing j).become target m downloadName := by
  have hget : p.registry.get? j = some r := hr
  have hid := Registry.id_of_get? hget
  rw [move_eq hget hmay]
  simp [standing, become, Registry.get?_replace, hid, hget, task?]

theorem task?_move (target : JobStatus) (m : String) (downloadName : Option String) :
    (p.move i target m downloadName).task? j = p.task? j := by
  unfold move
  cases p.registry.transition i target m downloadName <;> rfl

theorem task?_fail (m : String) : (p.fail i m).task? j = p.task? j := by
  unfold fail
  split_ifs
  · rfl
  · exact task?_move _ _ _

/-- A job that is not over may fail. -/
theorem mayBecome_error {status : JobStatus} (h : ¬ status.isTerminal = true)
    (hstatus : status ≠ .notFound) : status.mayBecome .error = true := by
  cases status with
  | notFound => exact absurd rfl hstatus
  | queued => rfl
  | processing => rfl
  | completed => exact absurd rfl h
  | error => exact absurd rfl h

theorem isTerminal_eq {r : Job} (hr : (p.standing j).record = some r) :
    p.registry.isTerminal j = r.status.isTerminal := by
  have hget : p.registry.get? j = some r := hr
  unfold Registry.isTerminal
  rw [hget]

theorem standing_fail_self {r : Job} (hr : (p.standing j).record = some r)
    (hstatus : r.status ≠ .notFound) (m : String) :
    (p.fail j m).standing j = (p.standing j).fail m := by
  unfold fail Standing.fail
  rw [isTerminal_eq hr, hr, Option.any_some]
  split_ifs with hover
  · rfl
  · exact standing_move_self hr (mayBecome_error hover hstatus) m none

/-! ## Waiting in line -/

/-- The jobs that wait for a slot, first come first. -/
def line (p : Pipeline) : List String := (p.slots.map (·.line)).getD []

/-- The jobs in line wait to be called, each once. -/
structure Queueing (p : Pipeline) : Prop where
  nodup : p.line.Nodup
  waits : ∀ job ∈ p.line, (p.standing job).Waits

theorem Queueing.of_frame (h : p.Queueing) (hline : p'.line.Sublist p.line)
    (hframe : ∀ j ∈ p'.line, (p'.standing j).task = (p.standing j).task) : p'.Queueing := by
  refine ⟨h.nodup.sublist hline, fun j hj => ?_⟩
  obtain ⟨t, ht, hwaits⟩ := h.waits j (hline.subset hj)
  exact ⟨t, (hframe j hj).trans ht, hwaits⟩

/-- A task with a signal does not stand in line. -/
theorem Queueing.not_mem (h : p.Queueing) (ht : p.task? j = some t)
    (hsignal : t.signal.isSome = true ∨ t.stage ≠ .waiting) : j ∉ p.line := by
  intro hj
  obtain ⟨u, hu, hstage, hnone⟩ := h.waits j hj
  unfold standing at hu
  rw [ht, Option.map_some, Option.some.injEq] at hu
  subst hu
  rcases hsignal with hsignal | hsignal
  · rw [show t.signal = none from hnone] at hsignal
    cases hsignal
  · exact hsignal hstage

/-! ## Slots -/

theorem standing_call_of_none {r : Slots × Option String} (hr : r.2 = none) (j : String) :
    (p.call r).standing j = p.standing j := by
  unfold call
  rw [hr]
  rfl

theorem task?_call {r : Slots × Option String} {next : String} (hr : r.2 = some next) (j : String) :
    (p.call r).task? j =
      if j = next then
        (p.task? next).map fun u => { u with holdsSlot := true, signal := some (.done (.ok ())) }
      else p.task? j := by
  unfold call
  rw [hr]
  exact find?_update p.tasks Task.job next j
    (fun u => { u with holdsSlot := true, signal := some (.done (.ok ())) }) fun _ hu => hu

theorem standing_call {r : Slots × Option String} {next : String} (hr : r.2 = some next)
    (j : String) :
    (p.call r).standing j = { p.standing j with task := ((p.call r).task? j).map Task.bare } := by
  unfold call
  rw [hr]
  rfl

theorem standing_call_of_ne {r : Slots × Option String} {next : String} (hr : r.2 = some next)
    (h : j ≠ next) : (p.call r).standing j = p.standing j := by
  rw [standing_call hr, task?_call hr, if_neg h]
  rfl

theorem line_call (p : Pipeline) (r : Slots × Option String) : (p.call r).line = r.1.line := by
  unfold call
  cases r.2 <;> rfl

/-- The job that is called can run. -/
theorem standing_call_self {r : Slots × Option String} {next : String} (hr : r.2 = some next)
    (ht : (p.standing next).task = some t) :
    (p.call r).standing next = (p.standing next).place t t.stage (some (.done (.ok ()))) := by
  obtain ⟨u, hu, rfl⟩ := Option.map_eq_some_iff.mp ht
  rw [standing_call hr, task?_call hr, if_pos rfl, hu]
  rfl

theorem setup_call (p : Pipeline) (r : Slots × Option String) : (p.call r).setup = p.setup := by
  unfold call
  cases r.2 <;> rfl

theorem registry_call (p : Pipeline) (r : Slots × Option String) :
    (p.call r).registry = p.registry := by
  unfold call
  cases r.2 <;> rfl

theorem refusals_call (p : Pipeline) (r : Slots × Option String) :
    (p.call r).refusals = p.refusals := by
  unfold call
  cases r.2 <;> rfl

/-- The first in line is called to a slot that is free, or nobody. -/
theorem callNext_eq (s : Slots) :
    s.callNext = (s, none) ∨ ∃ next line, s.line = next :: line ∧ 0 < s.free ∧
      s.callNext = (⟨s.free - 1, line, s.called ++ [next]⟩, some next) := by
  unfold Slots.callNext
  cases hline : s.line with
  | nil => exact .inl rfl
  | cons next line =>
    by_cases hfree : s.free = 0
    · exact .inl (by simp [hfree])
    · exact .inr ⟨next, line, rfl, by omega, by simp [hfree]⟩

theorem callNext_cases (s : Slots) :
    s.callNext = (s, none) ∨
      ∃ next, s.callNext.2 = some next ∧ s.line = next :: s.callNext.1.line := by
  rcases callNext_eq s with hnone | ⟨next, line, hline, -, hnext⟩
  · exact .inl hnone
  · exact .inr ⟨next, by rw [hnext], by rw [hnext, hline]⟩

/-- No job is new, no move was refused, and those in line still wait. -/
structure Kept (p p' : Pipeline) : Prop where
  setup : p'.setup = p.setup
  ids : p'.registry.jobs.map Job.id = p.registry.jobs.map Job.id
  refusals : p'.refusals = p.refusals
  queueing : p'.Queueing

theorem Kept.refl (h : p.Queueing) : Kept p p := ⟨rfl, rfl, rfl, h⟩

theorem Kept.trans {p'' : Pipeline} (h : Kept p p') (h' : Kept p' p'') : Kept p p'' :=
  ⟨h'.setup.trans h.setup, h'.ids.trans h.ids, h'.refusals.trans h.refusals, h'.queueing⟩

/-- A change that concerns one job. At most, other jobs are called to slots. -/
structure Confined (taken : String → Request → Prop) (job : String) (p p' : Pipeline) : Prop
    extends Kept p p' where
  sublist : p'.line.Sublist p.line
  elsewhere : ∀ j ≠ job,
    Relation.ReflTransGen (Happens p.setup taken) (p.standing j) (p'.standing j)

namespace Confined

variable {taken : String → Request → Prop}

theorem refl (h : p.Queueing) : Confined taken i p p :=
  ⟨.refl h, List.Sublist.refl _, fun _ _ => .refl⟩

theorem not_mem (h : Confined taken i p p') (hi : i ∉ p.line) : i ∉ p'.line :=
  fun hmem => hi (h.sublist.subset hmem)

/-- A change of what concerns the job alone. -/
theorem trans_of_frame {p'' : Pipeline} (h : Confined taken i p p') (hi : i ∉ p.line)
    (hsetup : p''.setup = p'.setup)
    (hids : p''.registry.jobs.map Job.id = p'.registry.jobs.map Job.id)
    (hrefusals : p''.refusals = p'.refusals) (hline : p''.line = p'.line)
    (hframe : ∀ j ≠ i, p''.standing j = p'.standing j) : Confined taken i p p'' := by
  refine ⟨⟨hsetup.trans h.setup, hids.trans h.ids, hrefusals.trans h.refusals, ?_⟩, ?_, ?_⟩
  · refine h.queueing.of_frame (by rw [hline]) fun j hj => ?_
    have hne : j ≠ i := by
      rintro rfl
      exact h.not_mem hi (hline ▸ hj)
    rw [hframe j hne]
  · rw [hline]
    exact h.sublist
  · intro j hj
    rw [hframe j hj]
    exact h.elsewhere j hj

theorem putTask (h : Confined taken i p p') (hi : i ∉ p.line) (ht : t.job = i) :
    Confined taken i p (p'.putTask t) :=
  h.trans_of_frame hi rfl rfl rfl rfl fun _ hj => standing_putTask_of_ne (ht ▸ hj)

theorem hand (h : Confined taken i p p') (hi : i ∉ p.line) (ht : t.job = i) (work : Work)
    (stage : Stage) : Confined taken i p (p'.hand t work stage) :=
  h.trans_of_frame hi rfl rfl rfl rfl fun _ hj => standing_hand_of_ne work stage (ht ▸ hj)

theorem move (h : Confined taken i p p') (hi : i ∉ p.line) {r : Job}
    (hr : p'.registry.get? i = some r) {target : JobStatus}
    (hmay : r.status.mayBecome target = true) (m : String) (downloadName : Option String) :
    Confined taken i p (p'.move i target m downloadName) := by
  have hframe : ∀ j ≠ i, (p'.move i target m downloadName).standing j = p'.standing j :=
    fun j hj => standing_move_of_ne target m downloadName hj
  rw [move_eq hr hmay] at hframe ⊢
  exact h.trans_of_frame hi rfl (Registry.ids_replace _ _) rfl rfl hframe

/-- The first in line may be called to a slot. -/
theorem callNext (h : Confined taken i p p') {s s' : Slots} (hs' : p'.slots = some s')
    (hline : s.line = s'.line) : Confined taken i p (p'.call s.callNext) := by
  have hline' : p'.line = s.line := by
    unfold Pipeline.line
    rw [hs', hline]
    rfl
  have hnew := line_call p' s.callNext
  have hids : (p'.call s.callNext).registry.jobs.map Job.id = p.registry.jobs.map Job.id := by
    rw [registry_call]
    exact h.ids
  suffices hrest : (p'.call s.callNext).Queueing ∧ (p'.call s.callNext).line.Sublist p.line ∧
      ∀ j ≠ i, Relation.ReflTransGen (Happens p.setup taken) (p.standing j)
        ((p'.call s.callNext).standing j) from
    ⟨⟨(setup_call _ _).trans h.setup, hids, (refusals_call _ _).trans h.refusals, hrest.1⟩,
      hrest.2.1, hrest.2.2⟩
  rcases callNext_cases s with hnone | ⟨next, hnext, hcons⟩
  · have hframe : ∀ j, (p'.call s.callNext).standing j = p'.standing j :=
      standing_call_of_none (by rw [hnone])
    have hsame : (p'.call s.callNext).line = p'.line := by rw [hnew, hline', hnone]
    refine ⟨h.queueing.of_frame (by rw [hsame]) fun j _ => by rw [hframe], ?_, fun j hj => ?_⟩
    · rw [hsame]
      exact h.sublist
    · rw [hframe]
      exact h.elsewhere j hj
  · have hfirst : p'.line = next :: (p'.call s.callNext).line := by rw [hnew, hline', hcons]
    have hsub : (p'.call s.callNext).line.Sublist p'.line := by
      rw [hfirst]
      exact List.sublist_cons_self _ _
    have hgone : next ∉ (p'.call s.callNext).line := by
      have hnodup := h.queueing.nodup
      rw [hfirst] at hnodup
      exact (List.nodup_cons.mp hnodup).1
    refine ⟨h.queueing.of_frame hsub fun j hj => ?_, hsub.trans h.sublist, fun j hj => ?_⟩
    · rw [standing_call_of_ne hnext (fun heq => hgone (heq ▸ hj))]
    · by_cases hjnext : j = next
      · subst hjnext
        obtain ⟨t, ht, hstage, hsignal⟩ := h.queueing.waits j (hfirst ▸ List.mem_cons_self)
        refine (h.elsewhere j hj).tail ?_
        rw [standing_call_self hnext ht, hstage]
        exact .called ht hstage hsignal
      · rw [standing_call_of_ne hnext hjnext]
        exact h.elsewhere j hj

theorem releaseSlot (h : Confined taken i p p') (t : Task) :
    Confined taken i p (p'.releaseSlot t) := by
  unfold Pipeline.releaseSlot
  split
  · rename_i s _ hs
    exact h.callNext hs rfl
  · exact h

theorem takeSlot (h : Confined taken i p p') (t : Task) : Confined taken i p (p'.takeSlot t) := by
  unfold Pipeline.takeSlot
  split
  · exact h
  · rename_i s hs
    exact h.callNext hs rfl

theorem leaveLine (h : Confined taken i p p') (hi : i ∉ p.line) (t : Task) :
    Confined taken i p (p'.leaveLine t) := by
  refine h.trans_of_frame hi rfl rfl rfl ?_ fun _ _ => rfl
  unfold Pipeline.leaveLine line Slots.come
  cases p'.slots <;> rfl

theorem fail (h : Confined taken i p p') (hi : i ∉ p.line) {r : Job}
    (hr : (p'.standing i).record = some r) (hstatus : r.status ≠ .notFound) (m : String) :
    Confined taken i p (p'.fail i m) := by
  unfold Pipeline.fail
  rw [isTerminal_eq hr]
  split_ifs with hover
  · exact h
  · exact h.move hi hr (mayBecome_error hover hstatus) m none

theorem putArea (h : Confined taken i p p') (hi : i ∉ p.line) (area : StagingArea) :
    Confined taken i p { p' with areas := putMember p'.areas i area } :=
  h.trans_of_frame hi rfl rfl rfl rfl fun _ hj => standing_putArea_of_ne area hj

end Confined

/-- A job that is not in line is not called. -/
theorem standing_callNext_of_not_mem {s s' : Slots} (hs' : p.slots = some s')
    (hline : s.line = s'.line) (hj : j ∉ p.line) :
    (p.call s.callNext).standing j = p.standing j := by
  have hline' : p.line = s.line := by
    unfold line
    rw [hs', hline]
    rfl
  rcases callNext_cases s with hnone | ⟨next, hnext, hcons⟩
  · exact standing_call_of_none (by rw [hnone]) j
  · refine standing_call_of_ne hnext ?_
    rintro rfl
    rw [hline', hcons] at hj
    exact hj List.mem_cons_self

theorem standing_releaseSlot (t : Task) (hj : j ∉ p.line) :
    (p.releaseSlot t).standing j = p.standing j := by
  unfold releaseSlot
  split
  · rename_i s _ hs
    exact standing_callNext_of_not_mem hs rfl hj
  · rfl

theorem standing_takeSlot (t : Task) (hj : j ∉ p.line) :
    (p.takeSlot t).standing j = p.standing j := by
  unfold takeSlot
  split
  · rfl
  · rename_i s hs
    exact standing_callNext_of_not_mem hs rfl hj

end Pipeline

end EntityScaffold
