import EntityScaffold.Proofs.CommandLine.ExitCodes
import EntityScaffold.Proofs.Package.Writing

/-!
# Runs that package

A run that is given a request and an output may still not come to package: the output may be
empty, the request may hold a length that cannot be written, and a strict run refuses what has
errors. And the packaging may fail. What is left in the files tells which of these it was only
together with what the run came to do.

* `packing?`: the request that a run comes to package, and where to.
* `Packages`: a run comes to package a request at a place, and does.
* `AsksPackage`: the arguments of a run ask for the package of a request.

Results:
* `tree_run`: a run leaves the files as they are, or as the packaging that it comes to leaves them.
* `success_iff_packages`: with an output that is named, a run ends with success exactly when it has
  packaged.
* `package_or_nothing`: what asking for a package comes to, with any output.
-/

namespace EntityScaffold.CommandLine

/-- A length of the request has too many digits to be written. -/
def hasUnwritableLengths (r : Request) : Bool := r.hasUnwritableFindings || r.hasUnwritableFiles

/-- The request is packaged nowhere: it has no table to compile or a length that cannot be written,
or the run is strict and it has errors. -/
def Arguments.withholds (a : Arguments) (r : Request) : Bool :=
  r.validTables.isEmpty || hasUnwritableLengths r || (a.strict && r.diagnose.hasErrors)

/-- The request that a run with arguments comes to package, and the destination of the package. -/
def Arguments.packing? (w : Surroundings) (a : Arguments) : Option (Request × Path) :=
  (requestOf? w a).bind fun r =>
    if a.withholds r then none else (packagePath? w a).map fun p => (r, p)

/-- The request that a run comes to package, and the destination of the package. -/
def packing? (w : Surroundings) (words : List String) : Option (Request × Path) :=
  match Arguments.ofWords words with
  | .error _ => none
  | .ok a => if a.serve then none else a.packing? w

/-- What the packaging that a run comes to leaves of the files. -/
def packagedTree (w : Surroundings) : Option (Request × Path) → FileTree FileBody
  | none => w.tree
  | some (r, p) => (Package.ofFiles w.tree r.compile.files p).1

/-- A run comes to package a request at a place, and does. -/
def Packages (w : Surroundings) (words : List String) (r : Request) (p : Path) : Prop :=
  packing? w words = some (r, p) ∧
    ∃ m, Package.ofFiles w.tree r.compile.files p = ((run w words).tree, .ok m)

variable {w : Surroundings} {words : List String} {a : Arguments} {file : Path} {r : Request}
  {p : Path}

/-! ## What a run leaves of the files -/

@[simp] theorem tree_announced (o : Outcome) : (announced o).tree = o.tree := by
  unfold announced
  split <;> rfl

@[simp] theorem tree_outcome (e : RequestError) : (e.outcome w).tree = w.tree := by
  unfold RequestError.outcome
  split <;> rfl

theorem tree_diagnose (w : Surroundings) (file : Path) : (diagnose w file).tree = w.tree := by
  unfold diagnose
  split
  · exact tree_outcome _
  · split <;> rfl

theorem tree_serve (w : Surroundings) (a : Arguments) : (serve w a).tree = w.tree := by
  unfold serve
  split <;> rfl

theorem tree_writePackage (tables : r.validTables ≠ []) (p : Path) :
    (writePackage w r p).tree = (Package.ofFiles w.tree r.compile.files p).1 := by
  unfold writePackage
  rcases hpackage : r.compileToPackage w.tree p with ⟨t, cause | c⟩
  · rw [Request.compileToPackage_eq_error hpackage]
    simp only
    split <;> rfl
  · obtain ⟨-, m, -, -, hfiles⟩ := Request.compileToPackage_eq_ok tables hpackage
    rw [hfiles]

/-- What generating leaves of the files. -/
theorem tree_generate (w : Surroundings) (a : Arguments) (destination : Option Path)
    (r : Request) :
    (generate w a destination r).tree =
      packagedTree w (if a.withholds r || a.dryRun then none
        else destination.map fun p => (r, p)) := by
  have herrors : r.compile.hasErrors = r.diagnose.hasErrors := rfl
  unfold generate Arguments.withholds hasUnwritableLengths
  cases htables : r.validTables.isEmpty with
  | true => rfl
  | false =>
    have hne : r.validTables ≠ [] := by simpa using htables
    cases hfindings : r.hasUnwritableFindings with
    | true =>
      rw [Request.validate?_of_unwritable hfindings]
      rfl
    | false =>
      rw [Request.validate?_of_writable hfindings]
      cases r.hasUnwritableFiles with
      | true => rfl
      | false =>
        simp only [herrors, Bool.false_eq_true, if_false, Bool.false_or]
        cases a.dryRun with
        | true =>
          rw [Bool.or_true]
          rfl
        | false =>
          cases destination with
          | none =>
            simp only [Option.map_none, ite_self]
            rfl
          | some p =>
            cases a.strict && r.diagnose.hasErrors with
            | true => rfl
            | false => exact tree_writePackage hne p

/-- A request is read from a file that is there. -/
theorem present?_of_loadRequest (h : loadRequest w file = .ok r) :
    ∃ body, w.tree.present? file = .ok (some (.file body)) := by
  unfold loadRequest Document.load at h
  cases hpresent : w.tree.present? file with
  | error cause => simp [hpresent] at h
  | ok found =>
    rcases found with _ | _ | body
    · simp [hpresent] at h
    · simp [hpresent] at h
    · exact ⟨body, rfl⟩

theorem Arguments.packing?_of_no_request (h : requestOf? w a = none) : a.packing? w = none := by
  rw [packing?, h]
  rfl

theorem Arguments.packing?_of_no_path (h : packagePath? w a = none) : a.packing? w = none := by
  unfold packing?
  rw [h]
  cases requestOf? w a with
  | none => rfl
  | some r => exact ite_self none

/-- What generating from a file leaves of the files. -/
theorem tree_generateFrom {text : String} {destination : Option Path}
    (schema : a.schema = some text) (resolved : w.resolve text = .ok file)
    (generating : a.validateOnly = false) (named : destinationOf w a = .ok destination) :
    (generateFrom w a file destination).tree = packagedTree w (a.packing? w) := by
  have hpath : packagePath? w a = if a.dryRun then none else destination := by
    unfold packagePath?
    rw [generating, named]
    rfl
  have hrequest : requestOf? w a = (loadRequest w file).toOption := by
    unfold requestOf?
    rw [schema, Option.bind_some, resolved]
    rfl
  unfold generateFrom
  rw [tree_announced]
  cases load : loadRequest w file with
  | error cause =>
    rw [load] at hrequest
    rw [Arguments.packing?_of_no_request hrequest]
    exact tree_outcome cause
  | ok r =>
    rw [load] at hrequest
    simp only [tree_generate]
    congr 1
    rw [Arguments.packing?, hrequest, hpath]
    show _ = if a.withholds r then none else _
    cases a.withholds r <;> cases a.dryRun <;> rfl

/-- Without a request there is nothing to package. -/
theorem requestOf?_of_absent_file {text : String} (schema : a.schema = some text)
    (resolved : w.resolve text = .ok file)
    (absent : ∀ body, w.tree.present? file ≠ .ok (some (.file body))) : requestOf? w a = none := by
  unfold requestOf?
  rw [schema, Option.bind_some, resolved]
  cases load : loadRequest w file with
  | error cause => simp [load, Except.toOption]
  | ok r =>
    obtain ⟨body, hbody⟩ := present?_of_loadRequest load
    exact absurd hbody (absent body)

/-- What working on a file that is there leaves of the files. -/
theorem tree_workOn_of_file {text : String} {body : FileBody} (schema : a.schema = some text)
    (resolved : w.resolve text = .ok file)
    (present : w.tree.present? file = .ok (some (.file body))) :
    (workOn w a text).tree = packagedTree w (a.packing? w) := by
  have unpacked : packagePath? w a = none → w.tree = packagedTree w (a.packing? w) := by
    intro h
    rw [Arguments.packing?_of_no_path h]
    rfl
  unfold workOn
  simp only [resolved, present]
  split_ifs with hvalidate hmissing
  · exact (tree_diagnose w file).trans (unpacked (by simp [packagePath?, hvalidate]))
  · rw [Bool.and_eq_true, Option.isNone_iff_eq_none] at hmissing
    exact unpacked (by simp [packagePath?, destinationOf, hmissing.1, Except.toOption])
  · cases named : destinationOf w a with
    | error cause => exact unpacked (by simp [packagePath?, named, Except.toOption])
    | ok destination =>
      exact tree_generateFrom schema resolved (Bool.eq_false_iff.mpr hvalidate) named

/-- What working on a request file leaves of the files. -/
theorem tree_workOn {text : String} (schema : a.schema = some text) :
    (workOn w a text).tree = packagedTree w (a.packing? w) := by
  have unrequested : requestOf? w a = none → w.tree = packagedTree w (a.packing? w) := by
    intro h
    rw [Arguments.packing?_of_no_request h]
    rfl
  cases resolved : w.resolve text with
  | error cause =>
    have hnone : requestOf? w a = none := by
      unfold requestOf?
      rw [schema, Option.bind_some, resolved]
      rfl
    unfold workOn
    simp only [resolved]
    exact unrequested hnone
  | ok file =>
    by_cases hfile : ∃ body, w.tree.present? file = .ok (some (.file body))
    · obtain ⟨body, present⟩ := hfile
      exact tree_workOn_of_file schema resolved present
    · have hnone := requestOf?_of_absent_file schema resolved fun body h => hfile ⟨body, h⟩
      unfold workOn
      simp only [resolved]
      split
      · exact unrequested hnone
      · rename_i body present
        exact absurd ⟨body, present⟩ hfile
      · exact unrequested hnone

/-- **A run leaves the files as they are, or as the packaging that it comes to leaves them.** -/
theorem tree_run (w : Surroundings) (words : List String) :
    (run w words).tree = packagedTree w (packing? w words) := by
  unfold run packing?
  cases Arguments.ofWords words with
  | error stop => cases stop <;> rfl
  | ok a =>
    cases hserve : a.serve with
    | true =>
      simp only [perform, hserve, if_true]
      exact tree_serve w a
    | false =>
      simp only [perform, hserve, Bool.false_eq_true, if_false]
      cases schema : a.schema with
      | none =>
        unfold Arguments.packing? requestOf?
        rw [schema]
        rfl
      | some text => exact tree_workOn schema

/-- A run that comes to package has done so exactly when the packaging succeeds. -/
theorem packages_iff : Packages w words r p ↔
    packing? w words = some (r, p) ∧ ∃ m, (Package.ofFiles w.tree r.compile.files p).2 = .ok m := by
  refine and_congr_right fun hpacking => exists_congr fun m => ?_
  have htree : (run w words).tree = (Package.ofFiles w.tree r.compile.files p).1 := by
    rw [tree_run, hpacking]
    rfl
  rw [htree]
  exact ⟨fun h => congrArg Prod.snd h, fun h => Prod.ext rfl h⟩

/-! ## Asking for a package -/

/-- The arguments of a run name a request that can be read and has a table to compile, and name an
output; and they ask for nothing else. -/
structure AsksPackage (w : Surroundings) (words : List String) (a : Arguments) (r : Request)
    (output : String) : Prop where
  read : Arguments.ofWords words = .ok a
  request : requestOf? w a = some r
  tables : r.validTables ≠ []
  output : a.output = some output
  serving : a.serve = false
  diagnosing : a.validateOnly = false
  listing : a.dryRun = false
  /-- The working directory is somewhere. -/
  directory : w.directory ≠ []

theorem eq_ok_of_toOption {ε α : Type} {x : Except ε α} {y : α} (h : x.toOption = some y) :
    x = .ok y := by
  cases x with
  | error e => cases h
  | ok z => rw [Option.some.inj h]

variable {output : String}

namespace AsksPackage

theorem opens (h : AsksPackage w words a r output) :
    ∃ file, Opens w words a file ∧ loadRequest w file = .ok r := by
  have hrequest := h.request
  unfold requestOf? at hrequest
  obtain ⟨text, schema, hfile⟩ := Option.bind_eq_some_iff.mp hrequest
  obtain ⟨file, hresolved, hload⟩ := Option.bind_eq_some_iff.mp hfile
  have load := eq_ok_of_toOption hload
  exact ⟨file, ⟨h.read, ⟨text, schema, eq_ok_of_toOption hresolved⟩,
    present?_of_loadRequest load⟩, load⟩

theorem packing?_eq (h : AsksPackage w words a r output) :
    packing? w words =
      if a.withholds r then none
      else (destinationOf w a).toOption.join.map fun p => (r, p) := by
  have hpath : packagePath? w a = (destinationOf w a).toOption.join := by
    unfold packagePath?
    rw [h.diagnosing, h.listing]
    rfl
  unfold packing? Arguments.packing?
  simp only [h.read, h.serving, h.request, hpath]
  rfl

/-- A run whose output can be resolved comes to the files of its request. -/
theorem generates (h : AsksPackage w words a r output) {destination : Option Path}
    (named : destinationOf w a = .ok destination) : Generates w words a r := by
  obtain ⟨file, opens, load⟩ := h.opens
  obtain ⟨text, schema, -⟩ := opens.named
  have complete : a.complete w = true := by
    unfold Arguments.complete
    rw [schema, h.output, named]
    simp [Except.toOption]
  exact ⟨⟨file, ⟨opens, complete⟩, load⟩, h.diagnosing, h.tables⟩

/-- How a run that asks for a package ends. -/
theorem ending_eq (h : AsksPackage w words a r output) :
    (run w words).ending =
      match destinationOf w a with
      | .error cause => .breakdown (.file cause)
      | .ok destination =>
        if hasUnwritableLengths r then .breakdown .unwritableLength
        else
          match destination with
          | none => .exit .success
          | some p =>
            if a.strict && r.diagnose.hasErrors then .exit .diagnostics
            else (writePackage w r p).ending := by
  cases named : destinationOf w a with
  | error cause =>
    obtain ⟨file, opens, -⟩ := h.opens
    rw [opens.ending_eq h.serving, h.diagnosing, h.output, named]
    rfl
  | ok destination =>
    have generates := h.generates named
    simp only
    cases hunwritable : hasUnwritableLengths r with
    | true =>
      rw [if_pos rfl]
      exact generates.ending_of_unwritable h.serving hunwritable
    | false =>
      rw [if_neg Bool.false_ne_true]
      have hwritable := Bool.or_eq_false_iff.mp hunwritable
      have compiles : Compiles w words a r := ⟨generates, hwritable.1, hwritable.2⟩
      have hpath : packagePath? w a = destination := by
        unfold packagePath?
        rw [h.diagnosing, h.listing, named]
        rfl
      cases destination <;> simp only [compiles.ending_eq h.serving, hpath]

/-- Where the package of a named output goes. -/
theorem destinationOf_eq (h : AsksPackage w words a r output) (houtput : output ≠ "") :
    destinationOf w a = (w.resolve output).map some := by
  unfold destinationOf
  rw [h.output]
  split
  · rename_i hnone
    cases hnone
  · rename_i hempty
    exact absurd (Option.some.inj hempty) houtput
  · rename_i hsome
    rw [Option.some.inj hsome]

/-- A run that comes to package ends with success when the packaging succeeds. -/
theorem ending_writePackage_iff (h : AsksPackage w words a r output) (p : Path) :
    (writePackage w r p).ending = .exit .success ↔
      ∃ m, (Package.ofFiles w.tree r.compile.files p).2 = .ok m := by
  rw [ending_writePackage h.tables]
  rcases hpackage : r.compileToPackage w.tree p with ⟨t, cause | c⟩
  · rw [Request.compileToPackage_eq_error hpackage]
    simp only [reduceCtorEq, exists_false, iff_false]
    split_ifs <;> simp
  · obtain ⟨-, m, -, -, hfiles⟩ := Request.compileToPackage_eq_ok h.tables hpackage
    rw [hfiles]
    exact iff_of_true rfl ⟨m, rfl⟩

/-- **With an output that is named, a run ends with success exactly when it has packaged.** -/
theorem success_iff_packages (h : AsksPackage w words a r output) (houtput : output ≠ "") :
    (run w words).ending = .exit .success ↔ ∃ p, w.resolve output = .ok p ∧
      Packages w words r p := by
  have hnamed := h.destinationOf_eq houtput
  have hending := h.ending_eq
  have hpacking := h.packing?_eq
  have htables : r.validTables.isEmpty = false := by simpa using h.tables
  simp only [packages_iff]
  cases hresolve : w.resolve output with
  | error cause =>
    rw [hnamed, hresolve] at hending
    rw [hending]
    exact ⟨nofun, nofun⟩
  | ok p =>
    rw [hnamed, hresolve] at hending hpacking
    unfold Arguments.withholds at hpacking
    rw [htables, Bool.false_or] at hpacking
    rw [hending, hpacking]
    simp only [Except.map]
    cases hasUnwritableLengths r with
    | true => exact ⟨nofun, nofun⟩
    | false =>
      cases a.strict && r.diagnose.hasErrors with
      | true => exact ⟨nofun, nofun⟩
      | false =>
        simp only [Bool.false_eq_true, if_false, Bool.or_self]
        rw [h.ending_writePackage_iff p]
        constructor
        · exact fun hm => ⟨p, rfl, rfl, hm⟩
        · rintro ⟨p', hp, -, hm⟩
          cases hp
          exact hm

/-- With an empty output there is no package, and nothing but a length can keep the run from ending
with success. -/
theorem of_empty (h : AsksPackage w words a r "") :
    packing? w words = none ∧
      ((run w words).ending = .exit .success ↔ hasUnwritableLengths r = false) := by
  have hnone : destinationOf w a = .ok none := by
    unfold destinationOf
    rw [h.output]
    rfl
  have hending := h.ending_eq
  have hpacking := h.packing?_eq
  rw [hnone] at hending hpacking
  refine ⟨hpacking.trans (ite_self none), ?_⟩
  rw [hending]
  cases hasUnwritableLengths r with
  | true => exact ⟨nofun, nofun⟩
  | false => exact iff_of_true rfl rfl

end AsksPackage

/-- A place that a run packages at is where an output leads. -/
theorem collapsed_of_resolve {text : String} (h : w.resolve text = .ok p) : p.collapsed = p := by
  unfold Surroundings.resolve at h
  simp only at h
  split_ifs at h
  cases h
  exact Path.collapsed_collapsed _

theorem ne_nil_of_resolve {text : String} (hdirectory : w.directory ≠ [])
    (h : w.resolve text = .ok p) : p ≠ [] := by
  unfold Surroundings.resolve at h
  simp only at h
  split_ifs at h
  cases h
  refine Path.collapsed_ne_nil ?_
  unfold Path.ofText
  split_ifs
  · exact List.cons_ne_nil _ _
  · exact List.append_ne_nil_of_left_ne_nil hdirectory _

theorem resolve_of_packing? (h : AsksPackage w words a r output) {r' : Request}
    (hpacking : packing? w words = some (r', p)) : r' = r ∧ w.resolve output = .ok p := by
  by_cases houtput : output = ""
  · subst houtput
    rw [h.of_empty.1] at hpacking
    cases hpacking
  · rw [h.packing?_eq, h.destinationOf_eq houtput] at hpacking
    split_ifs at hpacking
    cases hresolve : w.resolve output with
    | error cause =>
      rw [hresolve] at hpacking
      cases hpacking
    | ok p' =>
      rw [hresolve] at hpacking
      cases hpacking
      exact ⟨rfl, rfl⟩

/-- **A run that asks for a package writes it or nothing.** -/
theorem AsksPackage.content?_eq (h : AsksPackage w words a r output) :
    (∀ p, Packages w words r p → ∀ q, (run w words).tree.content? q =
      if q = p then some ((FileWrite.files r.compile.files p).body w.tree)
      else w.tree.content? q) ∧
    ((∀ p, ¬ Packages w words r p) →
      ∀ q, (run w words).tree.content? q = w.tree.content? q) := by
  constructor
  · rintro p ⟨hpacking, m, hfiles⟩ q
    obtain ⟨-, hresolve⟩ := resolve_of_packing? h hpacking
    have hwritten := (Package.written_of_ofFiles (ne_nil_of_resolve h.directory hresolve) hfiles).1
    rw [hwritten.content?_eq, collapsed_of_resolve hresolve]
    rfl
  · intro hnot q
    have htree := tree_run w words
    cases hpacking : packing? w words with
    | none =>
      rw [hpacking] at htree
      rw [htree]
      rfl
    | some packed =>
      obtain ⟨r', p⟩ := packed
      obtain ⟨rfl, hresolve⟩ := resolve_of_packing? h hpacking
      rw [hpacking] at htree
      rcases hfiles : Package.ofFiles w.tree r'.compile.files p with ⟨t, cause | m⟩
      · rw [packagedTree, hfiles] at htree
        rw [htree]
        exact (Package.grown_of_ofFiles (ne_nil_of_resolve h.directory hresolve)
          hfiles).content?_eq q
      · exact absurd (packages_iff.mpr ⟨hpacking, m, congrArg Prod.snd hfiles⟩) (hnot p)

/-- **What asking for a package comes to.** With an output that is named, the run ends with success
exactly when it has packaged the request there. With an empty output it packages nothing, but ends
with success all the same unless a length cannot be written. Whatever the output, a run that has
packaged leaves the archive of the request's files at its place and every other file as it was, and
one that has not leaves every file as it was. -/
theorem package_or_nothing (h : AsksPackage w words a r output) :
    (output ≠ "" → ((run w words).ending = .exit .success ↔
      ∃ p, w.resolve output = .ok p ∧ Packages w words r p)) ∧
    (output = "" → (∀ p, ¬ Packages w words r p) ∧
      ((run w words).ending = .exit .success ↔ hasUnwritableLengths r = false)) ∧
    (∀ p, Packages w words r p → ∀ q, (run w words).tree.content? q =
      if q = p then some ((FileWrite.files r.compile.files p).body w.tree)
      else w.tree.content? q) ∧
    ((∀ p, ¬ Packages w words r p) →
      ∀ q, (run w words).tree.content? q = w.tree.content? q) := by
  refine ⟨h.success_iff_packages, fun houtput => ?_, h.content?_eq⟩
  subst houtput
  obtain ⟨hnone, hsuccess⟩ := h.of_empty
  refine ⟨fun p hpackages => ?_, hsuccess⟩
  rw [Packages, hnone] at hpackages
  exact nomatch hpackages.1

/-- A run with an empty output ends with success, and there is no package anywhere. -/
theorem package_or_nothing_empty_output :
    let text := "\x7b\"tables\": [\x7b\"name\": \"a\", " ++
      "\"properties\": [\x7b\"name\": \"id\"\x7d]\x7d]\x7d"
    let w : Surroundings := {
      directory := ["", "home"]
      tree := ⟨[(["", "home"], .directory), (["", "home", "shop.json"], .file (.ofText text))]⟩
      defaultRoot := "/tmp" }
    let words := ["-s", "shop.json", "-o", ""]
    let r : Request := { tables := [{ name := "a", properties := [{ name := "id" }] }] }
    (run w words).ending = .exit .success ∧ (∀ p, ¬ Packages w words r p) ∧
      ∀ q, (run w words).tree.content? q = w.tree.content? q := by
  intro text w words r
  have hread : Arguments.ofWords words =
      .ok { schema := some "shop.json", output := some "" } := by decide +kernel
  have hrequest : requestOf? w { schema := some "shop.json", output := some "" } = some r := by
    decide +kernel
  have hasks : AsksPackage w words { schema := some "shop.json", output := some "" } r "" :=
    ⟨hread, hrequest, by decide, rfl, rfl, rfl, rfl, by decide⟩
  obtain ⟨-, hempty, -, hnothing⟩ := package_or_nothing hasks
  obtain ⟨hnone, hsuccess⟩ := hempty rfl
  exact ⟨hsuccess.mpr (by decide), hnone, hnothing hnone⟩

end EntityScaffold.CommandLine
