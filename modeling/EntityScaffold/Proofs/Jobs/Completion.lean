import EntityScaffold.Proofs.Jobs.FreshNames
import EntityScaffold.Proofs.Jobs.Packages

/-!
# What a completed job promises

A status is a promise to whoever asks for it: when a job is completed, its package is there under
the name that the status gives, can be fetched, and holds the files that were staged. This is so
in every state that a history reaches, whatever other jobs do and whenever which jobs are
cancelled.

Results:
* `Pipeline.course_run`: every job that was accepted keeps its course.
* `Pipeline.finished_of_completed`: what is known of a completed job.
* `Pipeline.completed_has_package`: what its status promises.
-/

namespace EntityScaffold.Pipeline

open Standing

variable {setup : PipelineSetup} {tree : FileTree FileBody} {events : List Event} {job : String}
  {r : Request}

/-- Nothing is staged yet for a job with a new name. -/
theorem filled_nil {ids : List String} (hfresh : FreshNames setup tree ids) (hjob : job ∈ ids) :
    Filled setup job tree [] := by
  refine ⟨fun f hf => absurd hf List.not_mem_nil, staged_nil fun q hq => ?_⟩
  unfold FileTree.content?
  rw [hfresh.staging job hjob q hq]

/-- **A job that was accepted keeps its course through every history.** -/
theorem course_run (hfooting : Footing setup tree) (hpack : setup.pack = Package.ofDirectory)
    (hfresh : FreshNames setup tree ((accepted events).map Prod.fst))
    (hmem : (job, r) ∈ accepted events) :
    Course setup r (((start setup tree).run events).standing job) := by
  let taken : String → Request → Prop := fun j r => (j, r) ∈ accepted events
  have hid : job ∈ (accepted events).map Prod.fst := List.mem_map_of_mem hmem
  have hapart : Apart setup fun j => ∃ r, taken j r :=
    hfresh.apart hfooting fun j ⟨r, hr⟩ => List.mem_map_of_mem hr
  have hstart : Course setup r (unknown job tree) := by
    refine ⟨hfooting.keyed, ?_, fun _ => filled_nil hfresh hid, ?_, ?_⟩
    · intro t ht
      cases ht
    · intro t ht
      cases ht
    · intro rec hrec
      cases hrec
  refine standing_run_induction setup tree (P := Course setup r) (fun x (hx : taken x.1 x.2) => hx)
    hstart ?_ fun _ _ _ _ _ _ hcourse => course_cancel hcourse
  rintro v v' rfl hsound hcourse hstep
  exact course_happens hpack hapart hmem (fun r' hr' => hfresh.request_unique hmem hr') hsound
    hcourse hstep

/-- **What is known of a completed job.** -/
theorem finished_of_completed (hfooting : Footing setup tree)
    (hpack : setup.pack = Package.ofDirectory)
    (hfresh : FreshNames setup tree ((accepted events).map Prod.fst))
    (hmem : (job, r) ∈ accepted events)
    (hcompleted : (((start setup tree).run events).registry.status job).status = .completed) :
    Finished setup r (((start setup tree).run events).standing job)
      (((start setup tree).run events).registry.status job).message := by
  obtain ⟨rec, hrec, hstatus⟩ := exists_record_of_status hcompleted (by decide)
  have hmessage : (((start setup tree).run events).registry.status job).message = rec.message := by
    unfold Registry.status
    rw [hrec]
  rw [hmessage]
  exact (course_run hfooting hpack hfresh hmem).completed rec hrec hstatus

/-- **What a status promises.** In every state that a history reaches, a job whose status is
completed is reported with the name of its package; this is a safe file name under which a package
is found that holds the files of the job's request, and these are the files that its staging area
has recorded. No other job is reported with a name. -/
theorem completed_has_package (hfooting : Footing setup tree)
    (hpack : setup.pack = Package.ofDirectory)
    (hfresh : FreshNames setup tree ((accepted events).map Prod.fst))
    (huuid : ∀ id ∈ (accepted events).map Prod.fst, HasUuidForm id) (job : String) :
    let p := (start setup tree).run events
    ((p.registry.status job).status = .completed →
      (p.registry.status job).downloadName = some (packageName job) ∧
      Text.isSafeFileName (packageName job) = true ∧
      p.packagePath (packageName job) = .ok (p.destination job) ∧
      ∃ r area, (job, r) ∈ accepted events ∧ p.areas.lookup job = some area ∧
        area.records = (setup.generate r).files.map stagedRecord ∧
        p.tree.read (p.destination job) =
          .ok (.archive (Package.contents (setup.generate r).files))) ∧
    ((p.registry.status job).status ≠ .completed →
      (p.registry.status job).downloadName = none) := by
  intro p
  have hconsistent : p.Consistent := consistent_history setup tree events
  have hsetup : p.setup = setup := setup_run (consistent_start setup tree) events
  have hname : ∀ rec, p.registry.get? job = some rec →
      (p.registry.status job).status = rec.status ∧ (p.registry.status job).downloadName =
        if rec.status = .completed then some (packageName job) else none := by
    intro rec hrec
    unfold Registry.status
    rw [hrec]
    exact ⟨rfl, ((hconsistent.sound job).records rec hrec).downloadName⟩
  refine ⟨fun hcompleted => ?_, fun hother => ?_⟩
  · obtain ⟨rec, hrec, hstatus⟩ := exists_record_of_status hcompleted (by decide)
    obtain ⟨r, hr⟩ := exists_accepted_of_get? setup tree hrec
    obtain ⟨-, ⟨-, hread⟩, ⟨area, harea, hrecords⟩, -⟩ :=
      finished_of_completed hfooting hpack hfresh hr hcompleted
    have hsafe := isSafeFileName_packageName (huuid job (List.mem_map_of_mem hr))
    have hplace : p.destination job = setup.destination job := by
      unfold destination
      rw [hsetup]
      rfl
    refine ⟨?_, hsafe, ?_, r, area, hr, harea, hrecords, hplace ▸ hread⟩
    · rw [(hname rec hrec).2, if_pos hstatus]
    · have hread' : p.tree.read (p.setup.packageDirectory ++ [packageName job]) = _ :=
        hplace ▸ hread
      unfold packagePath
      simp only [if_pos hsafe, hread']
      rfl
  · cases hrec : p.registry.get? job with
    | none =>
      unfold Registry.status
      rw [hrec]
    | some rec =>
      rw [(hname rec hrec).2, if_neg]
      rwa [(hname rec hrec).1] at hother

/-- A history in which one file is staged and packaged. -/
theorem completed_has_package_order :
    let setup : PipelineSetup :=
      { stagingRoot := ["", "tmp"]
        packageDirectory := ["", "out"]
        generate := fun _ => { files := [("Order.cs", "class Order")] } }
    let id := "6fa459ea-ee8a-3ca4-894e-db77e160355e"
    let events : List Event :=
      [.submit id { tables := [⟨"order", [{ name := "id" }], none⟩] }, .resume id,
        .begin 0, .finish 0, .resume id, .begin 0, .finish 0, .resume id,
        .begin 0, .finish 0, .resume id]
    let p := (start setup {}).run events
    p.tree.read (p.destination id) =
      .ok (.archive (Package.contents [("Order.cs", "class Order")])) := by
  intro setup id events p
  have hform : ∀ i ∈ [id], HasUuidForm i :=
    fun i hi => List.mem_singleton.mp hi ▸ .of_all (by decide) (by decide)
  have hfooting : Footing setup {} := ⟨by decide, by decide, List.nodup_nil⟩
  have hfresh : FreshNames setup {} ((accepted events).map Prod.fst) :=
    .of_empty (by decide) hform (List.nodup_singleton id) (by decide)
  obtain ⟨-, -, -, r, -, -, -, -, hread⟩ :=
    (completed_has_package hfooting rfl hfresh hform id : _ ∧ _).1 (by decide +kernel)
  exact hread

end EntityScaffold.Pipeline
