import EntityScaffold.Proofs.Jobs.Footprints

/-!
# Staging areas keep to themselves

Two staging areas below one root share nothing but the way to the root. Whatever is asked of them,
in any order, with any texts for paths, and whether it succeeds or fails, each works in the
directory of its own job, and may make the directories that lead to the root.

* `StagingCall`, `StagingArea.perform`: a call on an area and what comes of it.
* `StagingSite`, `StagingSite.run`: a tree with areas, and a history of calls on them.
* `KeepsTo`: a change that stays in the directory of one job.

Results:
* `StagingArea.of_eq`: which directory a job has, and when it has none.
* `StagingArea.keepsTo_perform`: no call leaves the directory of its area.
* `StagingArea.written_below`: a write that is accepted puts its file strictly below it.
* `StagingSite.isolated`: all of this in every state that a history of calls on two areas reaches.
-/

namespace EntityScaffold

/-- What is asked of a staging area. -/
inductive StagingCall where
  | create
  | write (path text : String)
  | remove

/-- The name of a job that a directory can have: one without slashes and without the character that
ends names. -/
def PlainName (job : String) : Prop := '/' ∉ job.toList ∧ '\x00' ∉ job.toList

instance (job : String) : Decidable (PlainName job) := by
  unfold PlainName
  infer_instance

/-- Outside the directory of a job nothing changes, but that directories on the way to the root are
made where there was nothing. -/
def KeepsTo (root : Path) (job : String) (t t' : FileTree FileBody) : Prop :=
  ∀ q, t'.node? q = t.node? q ∨ stagingPlace root job <+: q ∨
    (t.node? q = none ∧ t'.node? q = some .directory ∧ q <+: root.collapsed)

variable {root : Path} {t t' : FileTree FileBody} {i j job : String}

theorem KeepsTo.of_stagingMark (h : StagingMark (stagingPlace root job) t t') :
    KeepsTo root job t t' := by
  intro q
  rcases h.nodes q with hsame | hbelow | ⟨hnone, hdir, habove⟩
  · exact .inl hsame
  · exact .inr (.inl hbelow)
  · rcases List.prefix_concat_iff.mp habove with rfl | hroot
    · exact .inr (.inl (List.prefix_refl _))
    · exact .inr (.inr ⟨hnone, hdir, hroot⟩)

/-- The way to the root is not below a staging directory. -/
theorem not_stagingPlace_of_root {q : Path} (hq : q <+: root.collapsed) :
    ¬ stagingPlace root job <+: q := by
  intro hbelow
  have hlength := (hbelow.trans hq).length_le
  simp only [stagingPlace, List.length_append, List.length_singleton] at hlength
  omega

/-- What keeps to the directory of one job changes nothing in that of another. -/
theorem KeepsTo.node?_eq (h : KeepsTo root i t t') (hij : i ≠ j) {q : Path}
    (hq : stagingPlace root j <+: q) : t'.node? q = t.node? q := by
  rcases h q with hsame | hbelow | ⟨-, -, hroot⟩
  · exact hsame
  · exact absurd (eq_of_below_stagingPlaces hbelow hq) hij
  · exact absurd hq (not_stagingPlace_of_root hroot)

/-! ## One area -/

namespace StagingArea

variable {a : StagingArea}

/-- The tree and the area after a call, and the outcome. -/
def perform (a : StagingArea) (t : FileTree FileBody) :
    StagingCall → FileTree FileBody × StagingArea × Except PackageError Unit
  | .create => ((a.create t).1, a, (a.create t).2.mapError .file)
  | .write path text =>
    ((a.write t path text).1,
      match (a.write t path text).2 with
      | .ok (a', _) => (a', .ok ())
      | .error e => (a, .error e))
  | .remove => ((a.remove t).1, a, (a.remove t).2.mapError .file)

theorem hasNull_stagingName (h : PlainName job) : FileTree.hasNull [stagingName job] = false := by
  have hnull : '\x00' ∉ (stagingName job).toList := by
    rw [toList_stagingName, List.mem_append, not_or]
    exact ⟨by decide, h.2⟩
  simpa [FileTree.hasNull] using hnull

/-- **A job has the directory with its name below the root**, unless no path leads to the root. -/
theorem of_eq (hroot : root ≠ []) (h : PlainName job) :
    StagingArea.of root job =
      if FileTree.hasNull root then .error .nullByte else .ok ⟨stagingPlace root job, []⟩ := by
  have hnull : FileTree.hasNull (root ++ [stagingName job]) = FileTree.hasNull root := by
    have hname := hasNull_stagingName h
    unfold FileTree.hasNull at hname ⊢
    rw [List.any_append, hname, Bool.or_false]
  unfold StagingArea.of
  simp only
  rw [ofText_stagingName root h.1, hnull,
    Path.collapsed_concat_of_ne hroot (stagingName_ne_dotdot job)]
  rfl

/-- The directory of a job is a place. -/
theorem isPlace_stagingPlace (hroot : root ≠ []) (ha : a.path = stagingPlace root job) :
    a.IsPlace := by
  have hconcat := Path.collapsed_concat_of_ne hroot (stagingName_ne_dotdot job)
  have hplace : stagingPlace root job = (root ++ [stagingName job]).collapsed := hconcat.symm
  refine ⟨?_, ?_⟩
  · rw [ha, hplace, Path.collapsed_collapsed]
  · simp [ha, stagingPlace]

theorem path_of_write {path text : String} {r : StagingArea × FileRecord}
    (h : (a.write t path text).2 = .ok r) : r.1.path = a.path := by
  unfold write at h
  split at h
  · cases h
  · split at h
    · cases h
    · cases h
      rfl

theorem path_perform (a : StagingArea) (t : FileTree FileBody) (call : StagingCall) :
    (a.perform t call).2.1.path = a.path := by
  cases call with
  | create => rfl
  | remove => rfl
  | write path text =>
    unfold perform
    simp only
    split
    · rename_i a' record hwrite
      exact path_of_write hwrite
    · rfl

/-- **No call leaves the directory of its area**, whatever its outcome. -/
theorem keepsTo_perform (hroot : root ≠ []) (ha : a.path = stagingPlace root job)
    (t : FileTree FileBody) (call : StagingCall) :
    KeepsTo root job t (a.perform t call).1 := by
  have hplace := isPlace_stagingPlace hroot ha
  refine .of_stagingMark ?_
  rw [← ha]
  cases call with
  | create => exact stagingMark_create hplace t
  | remove => exact stagingMark_remove hplace t
  | write path text => exact stagingMark_write hplace t path text

/-- **A write that is accepted puts its file strictly below the directory**, by names that lead
nowhere else. -/
theorem written_below (hroot : root ≠ []) (ha : a.path = stagingPlace root job)
    {path text : String} (h : (a.perform t (.write path text)).2.2 = .ok ()) :
    ∃ names, Path.relativeParts? path = some names ∧ names ≠ [] ∧
      (∀ n ∈ names, Path.IsPart n ∧ n ≠ "..") ∧
      (a.perform t (.write path text)).1.node? (stagingPlace root job ++ names) =
        some (.file (.ofText text)) := by
  have hplace := isPlace_stagingPlace hroot ha
  cases hresult : (a.write t path text).2 with
  | error e =>
    unfold perform at h
    simp only [hresult] at h
    cases h
  | ok r =>
    have hwrite : a.write t path text = ((a.write t path text).1, .ok r) := by rw [← hresult]
    obtain ⟨names, hnames, hwritten, -⟩ := written_of_write hwrite hplace.ne_nil
    obtain ⟨rfl, -, hdots, hne⟩ := Path.relativeParts?_eq_some_iff.mp hnames
    refine ⟨_, hnames, hne, fun n hn => ⟨Path.isPart_of_mem_parts hn, ?_⟩, ?_⟩
    · rintro rfl
      exact hdots hn
    · have hnode := hwritten.node?_self
      rwa [hplace.collapsed_append hdots, ha] at hnode

end StagingArea

/-! ## Several areas -/

/-- A tree with the staging areas of some jobs. -/
structure StagingSite where
  tree : FileTree FileBody
  areas : List (String × StagingArea)

namespace StagingSite

/-- A call on the area of a job, if it has one. -/
def step (s : StagingSite) (x : String × StagingCall) : StagingSite :=
  match s.areas.lookup x.1 with
  | none => s
  | some a => ⟨(a.perform s.tree x.2).1, putMember s.areas x.1 (a.perform s.tree x.2).2.1⟩

/-- The site after a history of calls. -/
def run (s : StagingSite) (calls : List (String × StagingCall)) : StagingSite :=
  calls.foldl step s

/-- The area of a job, if it has one, is its directory below the root. -/
def Placed (root : Path) (s : StagingSite) : Prop :=
  ∀ job a, s.areas.lookup job = some a → a.path = stagingPlace root job

variable {s : StagingSite}

theorem lookup_step (s : StagingSite) (x : String × StagingCall) (job : String) :
    (s.step x).areas.lookup job =
      if job = x.1 then (s.areas.lookup x.1).map fun a => (a.perform s.tree x.2).2.1
      else s.areas.lookup job := by
  unfold step
  cases ha : s.areas.lookup x.1 with
  | none =>
    split_ifs with hjob
    · rw [hjob, ha]
      rfl
    · rfl
  | some a =>
    simp only [lookup_putMember, Option.map_some, beq_iff_eq]

theorem placed_step (h : s.Placed root) (x : String × StagingCall) : (s.step x).Placed root := by
  intro job a ha
  rw [lookup_step] at ha
  split_ifs at ha with hjob
  · obtain ⟨old, hold, rfl⟩ := Option.map_eq_some_iff.mp ha
    rw [StagingArea.path_perform, hjob]
    exact h _ _ hold
  · exact h _ _ ha

/-- **A call keeps to the directory of its job.** -/
theorem keepsTo_step (hroot : root ≠ []) (h : s.Placed root) (x : String × StagingCall) :
    KeepsTo root x.1 s.tree (s.step x).tree := by
  unfold step
  cases ha : s.areas.lookup x.1 with
  | none => exact fun q => .inl rfl
  | some a => exact StagingArea.keepsTo_perform hroot (h _ _ ha) s.tree x.2

theorem placed_run (h : s.Placed root) (calls : List (String × StagingCall)) :
    (s.run calls).Placed root := by
  induction calls generalizing s with
  | nil => exact h
  | cons x calls ih => exact ih (placed_step h x)

theorem isSome_lookup_step (s : StagingSite) (x : String × StagingCall) (job : String) :
    ((s.step x).areas.lookup job).isSome = (s.areas.lookup job).isSome := by
  rw [lookup_step]
  split_ifs with hjob
  · rw [hjob, Option.isSome_map]
  · rfl

theorem isSome_lookup_run (calls : List (String × StagingCall)) (job : String) :
    ((s.run calls).areas.lookup job).isSome = (s.areas.lookup job).isSome := by
  induction calls generalizing s with
  | nil => rfl
  | cons x calls ih => exact ih.trans (isSome_lookup_step s x job)

/-- **A history of calls stays in the directories of the jobs that have areas.** -/
theorem node?_run (hroot : root ≠ []) (h : s.Placed root) (calls : List (String × StagingCall))
    {q : Path} (hq : ∀ job, (s.areas.lookup job).isSome = true → ¬ stagingPlace root job <+: q) :
    (s.run calls).tree.node? q = s.tree.node? q ∨
      (s.tree.node? q = none ∧ (s.run calls).tree.node? q = some .directory ∧
        q <+: root.collapsed) := by
  induction calls generalizing s with
  | nil => exact .inl rfl
  | cons x calls ih =>
    have hrest := ih (placed_step h x) fun job hjob => hq job (isSome_lookup_step s x job ▸ hjob)
    have hone : (s.step x).tree.node? q = s.tree.node? q ∨
        (s.tree.node? q = none ∧ (s.step x).tree.node? q = some .directory ∧
          q <+: root.collapsed) := by
      cases ha : s.areas.lookup x.1 with
      | none =>
        unfold step
        rw [ha]
        exact .inl rfl
      | some a =>
        refine (keepsTo_step hroot h x q).imp_right fun hchanged => hchanged.resolve_left ?_
        exact hq x.1 (by rw [ha]; rfl)
    rcases hone with hsame | ⟨hnone, hdir, hway⟩
    · rw [hsame] at hrest
      exact hrest
    · -- a directory that was made on the way stays
      rw [hdir] at hrest
      rcases hrest with hsame | ⟨habsent, -⟩
      · exact .inr ⟨hnone, hsame, hway⟩
      · cases habsent

theorem placed_pair {tree : FileTree FileBody} {a b : StagingArea}
    (ha : a.path = stagingPlace root i) (hb : b.path = stagingPlace root j) :
    Placed root ⟨tree, [(i, a), (j, b)]⟩ := by
  intro job c hc
  simp only [List.lookup_cons, List.lookup_nil] at hc
  split at hc
  · rename_i hjob
    cases hc
    rw [ha, beq_iff_eq.mp hjob]
  · split at hc
    · rename_i hjob
      cases hc
      rw [hb, beq_iff_eq.mp hjob]
    · cases hc

theorem isSome_lookup_pair (job : String) (a b : StagingArea) :
    (List.lookup job [(i, a), (j, b)]).isSome = true ↔ job = i ∨ job = j := by
  rw [List.lookup_cons, List.lookup_cons, List.lookup_nil]
  by_cases hi : job = i
  · simp [hi]
  · rw [beq_false_of_ne hi]
    by_cases hj : job = j
    · simp [hj]
    · rw [beq_false_of_ne hj]
      simp [hi, hj]

/-- **Two staging areas below one root keep to themselves.** For any root, any two jobs with
different plain names, any tree, any history of calls on their two areas and any call after it,
whatever becomes of that:

1. the areas are the directories with the names of the jobs, or there are none, as no path leads to
   the root;
2. after the history, everything outside the two directories is as before, but for directories that
   were made on the way to the root;
3. the call keeps to the directory of its own job, with the same exception;
4. it changes nothing in the directory of the other job;
5. if it is a write that is accepted, its file stands strictly below the directory. -/
theorem isolated {root : Path} (hroot : root ≠ []) {i j : String} (hij : i ≠ j)
    (hi : PlainName i) (hj : PlainName j) :
    (∀ job ∈ [i, j], StagingArea.of root job = if FileTree.hasNull root then .error .nullByte
      else .ok ⟨stagingPlace root job, []⟩) ∧
    ∀ a b, StagingArea.of root i = .ok a → StagingArea.of root j = .ok b →
      ∀ (tree : FileTree FileBody) (calls : List (String × StagingCall)),
      let s := run ⟨tree, [(i, a), (j, b)]⟩ calls
      (∀ q, ¬ stagingPlace root i <+: q → ¬ stagingPlace root j <+: q →
        s.tree.node? q = tree.node? q ∨
          (tree.node? q = none ∧ s.tree.node? q = some .directory ∧ q <+: root.collapsed)) ∧
      ∀ own ∈ [i, j], ∀ call,
        KeepsTo root own s.tree (s.step (own, call)).tree ∧
        (∀ other ∈ [i, j], other ≠ own → ∀ q, stagingPlace root other <+: q →
          (s.step (own, call)).tree.node? q = s.tree.node? q) ∧
        ∃ area, s.areas.lookup own = some area ∧
          ∀ path text, call = .write path text → (area.perform s.tree call).2.2 = .ok () →
            ∃ names, Path.relativeParts? path = some names ∧ names ≠ [] ∧
              (∀ n ∈ names, Path.IsPart n ∧ n ≠ "..") ∧
              (s.step (own, call)).tree.node? (stagingPlace root own ++ names) =
                some (.file (.ofText text)) := by
  have hof : ∀ job ∈ [i, j], StagingArea.of root job = if FileTree.hasNull root
      then .error .nullByte else .ok ⟨stagingPlace root job, []⟩ := by
    intro job hjob
    rcases List.mem_pair.mp hjob with rfl | rfl
    · exact StagingArea.of_eq hroot hi
    · exact StagingArea.of_eq hroot hj
  refine ⟨hof, fun a b ha hb tree calls => ?_⟩
  have hpath : ∀ {job c}, job ∈ [i, j] → StagingArea.of root job = .ok c →
      c.path = stagingPlace root job := by
    intro job c hjob hc
    rw [hof job hjob] at hc
    split_ifs at hc
    cases hc
    rfl
  have hstart : Placed root ⟨tree, [(i, a), (j, b)]⟩ :=
    placed_pair (hpath (List.mem_pair.mpr (.inl rfl)) ha) (hpath (List.mem_pair.mpr (.inr rfl)) hb)
  intro s
  have hplaced : s.Placed root := placed_run hstart calls
  refine ⟨fun q hqi hqj => node?_run hroot hstart calls fun job hjob => ?_, fun own hown call =>
    ⟨keepsTo_step hroot hplaced (own, call), fun other _ hne q hq => ?_, ?_⟩⟩
  · rcases (isSome_lookup_pair job a b).mp hjob with rfl | rfl
    · exact hqi
    · exact hqj
  · exact (keepsTo_step hroot hplaced (own, call)).node?_eq hne.symm hq
  · have hsome : (s.areas.lookup own).isSome = true := by
      rw [isSome_lookup_run]
      exact (isSome_lookup_pair own a b).mpr (List.mem_pair.mp hown)
    obtain ⟨area, harea⟩ := Option.isSome_iff_exists.mp hsome
    refine ⟨area, harea, fun path text hcall haccepted => ?_⟩
    subst hcall
    have htree : (s.step (own, .write path text)).tree =
        (area.perform s.tree (.write path text)).1 := by
      unfold step
      simp only [harea]
    rw [htree]
    exact StagingArea.written_below hroot (hplaced own area harea) haccepted

/-- Paths that lead out are refused, and the file of the other job stays. -/
theorem isolated_hostile :
    let root : Path := ["", "tmp"]
    let a : StagingArea := ⟨stagingPlace root "1", []⟩
    let b : StagingArea := ⟨stagingPlace root "2", []⟩
    let calls : List (String × StagingCall) :=
      [("2", .create), ("2", .write "A.cs" "kept"), ("1", .write "../GeneratedCode_2/A.cs" "no"),
        ("1", .write "/tmp/GeneratedCode_2/A.cs" "no"), ("1", .write "./b//A.cs" "own")]
    let s := run ⟨{}, [("1", a), ("2", b)]⟩ calls
    StagingArea.of root "1" = .ok a ∧ StagingArea.of root "2" = .ok b ∧
      s.tree.entries.map Prod.fst = [["", "tmp"], ["", "tmp", "GeneratedCode_2"],
        ["", "tmp", "GeneratedCode_2", "A.cs"], ["", "tmp", "GeneratedCode_1"],
        ["", "tmp", "GeneratedCode_1", "b"], ["", "tmp", "GeneratedCode_1", "b", "A.cs"]] ∧
      (s.step ("1", .remove)).tree.node? ["", "tmp", "GeneratedCode_2", "A.cs"] =
        s.tree.node? ["", "tmp", "GeneratedCode_2", "A.cs"] := by
  intro root a b calls s
  have hroot : root ≠ [] := by decide
  have hne : "1" ≠ "2" := by decide
  obtain ⟨hof, hcalls⟩ := isolated hroot hne (by decide) (by decide)
  have ha : StagingArea.of root "1" = .ok a := hof "1" (by decide)
  have hb : StagingArea.of root "2" = .ok b := hof "2" (by decide)
  obtain ⟨-, hstep⟩ := hcalls a b ha hb {} calls
  obtain ⟨-, hother, -⟩ := hstep "1" (by decide) .remove
  refine ⟨ha, hb, by decide +kernel, hother "2" (by decide) (by decide) _ ?_⟩
  decide

end StagingSite

end EntityScaffold
