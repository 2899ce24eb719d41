import EntityScaffold.Proofs.Documents
import EntityScaffold.Proofs.Findings
import Mathlib.Data.List.Induction
import Mathlib.Data.List.Nodup

/-!
# Assignments to a request

A request can be changed after it was read: a value is assigned to a name, and is read as a field
of a document would be. The rule that no two tables share a name is tested on the request that
already holds the new value, and what fails it is not taken back. So tables of one name can be
assigned, with an error, and remain until another list of tables is assigned.

* `Assignment`: a name and the value for it. `RecordShape.assignAll`: one after the other.
* `Table.NamesApart`: no two tables of a list share a name, blank names aside.
* `Assignment.tables?`: the tables that an assignment gives to a request.
* `Request.KeepsNames`: all along, the names of the tables stay apart and what is refused changes
  nothing.

Results:
* `RecordShape.assign_cases`: an assignment does nothing or sets what it read, and has an error in
  the second case exactly when the record that it made breaks the rule.
* `Request.assigned`: what one assignment to a request does.
* `Request.tables_assignAll`: the tables are those that were given last.
* `Request.assignments_settled`: names stay apart, and what is refused changes nothing, exactly when
  no assignment gives two tables of one name.
-/

namespace EntityScaffold

/-- A value that is assigned to a name. -/
structure Assignment where
  name : String
  value : Value

/-! ## Records -/

namespace RecordShape

variable {σ : Type} {shape : RecordShape σ}

/-- The record after some assignments, those that are refused included. -/
def assignAll (shape : RecordShape σ) (s : σ) (steps : List Assignment) : σ :=
  steps.foldl (fun s a => (shape.assign s a.name a.value).1) s

theorem assignAll_concat (s : σ) (steps : List Assignment) (a : Assignment) :
    shape.assignAll s (steps ++ [a]) =
      (shape.assign (shape.assignAll s steps) a.name a.value).1 := by
  unfold assignAll
  rw [List.foldl_append, List.foldl_cons, List.foldl_nil]

/-- A record that was read keeps its rule. -/
theorem rule_of_read {o : Origin} {v : Value} {s : σ} (h : shape.read o v = .ok s) :
    shape.rule s = none := by
  cases v with
  | scalar x => cases h
  | list vs => cases h
  | object ms =>
    obtain ⟨-, -, -, -, hrule⟩ := read_object_eq_ok_iff.mp h
    exact hrule

/-- **What an assignment can do.** It leaves the record alone, because the name is no field or the
value cannot be read, and is silent only about hidden names. Or it sets the field to what was read,
and the rule decides about the record that already holds it. -/
theorem assign_cases (shape : RecordShape σ) (s : σ) (name : String) (v : Value) :
    ((∀ f, shape.target name = .field f → ∀ set, f.read .document v ≠ .ok set) ∧
      (shape.assign s name v).1 = s ∧
      ((shape.assign s name v).2 = none → shape.target name = .hidden)) ∨
    ∃ f set, shape.target name = .field f ∧ f.read .document v = .ok set ∧
      shape.assign s name v =
        (set s, (shape.rule (set s)).map fun cause => .faults [⟨[], .rejected cause⟩]) := by
  unfold assign
  cases shape.target name with
  | field f =>
    cases hread : f.read .document v with
    | error fs =>
      refine .inl ⟨?_, by simp only [hread, Reading.under], ?_⟩
      · rintro _ ⟨⟩ set hset
        rw [hread] at hset
        cases hset
      · intro h
        simp only [hread, Reading.under] at h
        cases h
    | ok set =>
      refine .inr ⟨f, set, rfl, hread, ?_⟩
      simp only [hread, Reading.under]
      cases shape.rule (set s) <;> rfl
  | hidden => exact .inl ⟨fun f h => (by cases h), rfl, fun _ => rfl⟩
  | frozen | derived | unknown =>
    exact .inl ⟨fun f h => (by cases h), rfl, fun h => (by cases h)⟩

/-- A name that stands for a field is the name of the field. -/
theorem mem_fields_of_target {name : String} {f : Field σ} (h : shape.target name = .field f) :
    f ∈ shape.fields ∧ f.name = name := by
  unfold target at h
  -- the first three answers are no fields
  split at h
  · cases h
  split at h
  · cases h
  split at h
  · cases h
  cases hfind : shape.fields.find? (·.name == name) with
  | none =>
    rw [hfind] at h
    cases h
  | some g =>
    rw [hfind] at h
    cases h
    exact ⟨List.mem_of_find?_eq_some hfind, eq_of_beq (List.find?_some hfind :)⟩

end RecordShape

/-! ## One assignment to a request -/

/-- No two tables share a name, blank names aside. -/
def Table.NamesApart (tables : List Table) : Prop :=
  ((tables.filter (·.isNamed)).map (·.name)).Nodup

/-- The tables that an assignment gives to a request, if it assigns tables that can be read. -/
def Assignment.tables? (a : Assignment) : Option (List Table) :=
  if a.name = "tables" then
    ((Codec.list Table.shape.codec).read .document a.value).toOption
  else none

namespace Request

open RecordShape (AssignError)

/-- The rule of a request is about its tables. -/
theorem rule_eq_none_iff {r : Request} : shape.rule r = none ↔ Table.NamesApart r.tables :=
  uniqueNames_eq_none_iff

/-- The field of the tables. -/
def tablesField : Field Request :=
  .of "tables" (.list Table.shape.codec) (·.tables) fun v r => { r with tables := v }

theorem tablesField_mem_fields : tablesField ∈ shape.fields := by
  simp [shape, tablesField]

/-- Every field of a request can be assigned under its name. -/
theorem target_name {f : Field Request} (hf : f ∈ shape.fields) :
    shape.target f.name = .field f := by
  have distinct : (shape.fields.map Field.name).Nodup := by decide +kernel
  have hpublic : ∀ n ∈ shape.fields.map Field.name, n.startsWith "_" = false ∧
      (shape.derived.contains n || RecordShape.commonDerived.contains n) = false := by
    decide +kernel
  obtain ⟨hshown, hgiven⟩ := hpublic _ (List.mem_map_of_mem hf)
  have hfind : shape.fields.find? (·.name == f.name) = some f := by
    obtain ⟨g, hg⟩ := Option.isSome_iff_exists.mp
      (List.find?_isSome (p := fun g : Field Request => g.name == f.name) |>.mpr ⟨f, hf, by simp⟩)
    rw [hg, List.inj_on_of_nodup_map distinct (List.mem_of_find?_eq_some hg) hf
      (eq_of_beq (List.find?_some hg :))]
  have hopen : shape.frozen = false := rfl
  unfold RecordShape.target
  rw [hshown, hgiven, hopen, hfind]
  rfl

/-- A field that is set leaves the other fields as they are. -/
theorem dump_of_read {f g : Field Request} (hf : f ∈ shape.fields) (hg : g ∈ shape.fields)
    (hne : g.name ≠ f.name) {v : Value} {set : Request → Request}
    (hread : f.read .document v = .ok set) (r : Request) : g.dump (set r) = g.dump r := by
  simp only [shape, List.mem_cons, List.not_mem_nil, or_false] at hf hg
  rcases hf with rfl | rfl | rfl | rfl | rfl | rfl | rfl | rfl | rfl | rfl | rfl
  all_goals
    obtain ⟨a, -, rfl⟩ := Field.exists_of_read hread
    rcases hg with rfl | rfl | rfl | rfl | rfl | rfl | rfl | rfl | rfl | rfl | rfl
    all_goals first | rfl | exact absurd rfl hne

/-- The field of the tables is set to what the assignment gives, and no other field touches them. -/
theorem tables_of_read {f : Field Request} (hf : f ∈ shape.fields) {a : Assignment}
    (hname : f.name = a.name) {set : Request → Request}
    (hread : f.read .document a.value = .ok set) (r : Request) :
    (set r).tables = a.tables?.getD r.tables := by
  unfold Assignment.tables?
  simp only [shape, List.mem_cons, List.not_mem_nil, or_false] at hf
  rcases hf with rfl | rfl | rfl | rfl | rfl | rfl | rfl | rfl | rfl | rfl | rfl
  on_goal 3 =>
    obtain ⟨tables, htables, rfl⟩ := Field.exists_of_read hread
    have hgiven : a.name = "tables" := hname.symm
    rw [if_pos hgiven, htables]
    rfl
  all_goals
    obtain ⟨_, -, rfl⟩ := Field.exists_of_read hread
    rw [← hname, if_neg (by decide)]
    rfl

/-- Tables that cannot be read are not given. -/
theorem tables?_eq_none {a : Assignment}
    (h : ∀ f ∈ shape.fields, f.name = a.name → ∀ set, f.read .document a.value ≠ .ok set) :
    a.tables? = none := by
  unfold Assignment.tables?
  split
  · rename_i hname
    cases hread : (Codec.list Table.shape.codec).read .document a.value with
    | error fs => rfl
    | ok tables =>
      exact absurd (congrArg (Except.map _) hread)
        (h tablesField tablesField_mem_fields hname.symm _)
  · rfl

/-- What an assignment makes of a request, and its error. -/
structure Assigned (r : Request) (a : Assignment) (r' : Request) (e : Option AssignError) :
    Prop where
  /-- A field takes every value that can be read. -/
  own : ∀ f ∈ shape.fields, f.name = a.name → ∀ set, f.read .document a.value = .ok set → r' = set r
  /-- The other fields stay. -/
  others : ∀ f ∈ shape.fields, f.name ≠ a.name → f.dump r' = f.dump r
  tables : r'.tables = a.tables?.getD r.tables
  /-- What is refused is taken back unless names clash afterwards. -/
  refused : e ≠ none → r' = r ∨ ¬ Table.NamesApart r'.tables
  /-- Where names clash afterwards, only what does nothing is accepted. -/
  accepted : e = none → Table.NamesApart r'.tables ∨ shape.target a.name = .hidden ∧ r' = r

/-- **What one assignment to a request does.** -/
theorem assigned (r : Request) (a : Assignment) :
    Assigned r a (shape.assign r a.name a.value).1 (shape.assign r a.name a.value).2 := by
  obtain ⟨hunread, hsame, hsilent⟩ | ⟨f, set, htarget, hread, hset⟩ :=
    RecordShape.assign_cases shape r a.name a.value
  · rw [hsame]
    have hnot : ∀ f ∈ shape.fields, f.name = a.name → ∀ set, f.read .document a.value ≠ .ok set :=
      fun f hf hname => hunread f (hname ▸ target_name hf)
    exact {
      own := fun f hf hname set hread => absurd hread (hnot f hf hname set)
      others := fun _ _ _ => rfl
      tables := by rw [tables?_eq_none hnot, Option.getD_none]
      refused := fun _ => .inl rfl
      accepted := fun h => .inr ⟨hsilent h, rfl⟩ }
  · obtain ⟨hf, hname⟩ := RecordShape.mem_fields_of_target htarget
    rw [hset]
    have hrule := rule_eq_none_iff (r := set r)
    exact {
      own := fun g hg hgname set' hread' => by
        have : g = f := by
          have := target_name hg
          rw [hgname, htarget] at this
          cases this
          rfl
        subst this
        rw [hread] at hread'
        cases hread'
        rfl
      others := fun g hg hne => dump_of_read hf hg (hname ▸ hne) hread r
      tables := tables_of_read hf hname hread r
      refused := fun h => .inr (hrule.not.mp (by simpa using h))
      accepted := fun h => .inl (hrule.mp (by simpa using h)) }

/-! ## One assignment after the other -/

/-- **The tables are those that were given last**, whether that assignment was refused or not. -/
theorem tables_assignAll (r : Request) (steps : List Assignment) :
    (shape.assignAll r steps).tables =
      ((steps.filterMap Assignment.tables?).getLast?).getD r.tables := by
  induction steps using List.reverseRecOn with
  | nil => rfl
  | append_singleton steps a ih =>
    rw [RecordShape.assignAll_concat, (assigned _ a).tables, ih, List.filterMap_append]
    cases h : a.tables? <;> simp [h]

/-- All along, the names of the tables stay apart and what is refused changes nothing. -/
def KeepsNames : Request → List Assignment → Prop
  | _, [] => True
  | r, a :: steps =>
    let r' := (shape.assign r a.name a.value).1
    Table.NamesApart r'.tables ∧ ((shape.assign r a.name a.value).2 ≠ none → r' = r) ∧
      KeepsNames r' steps

/-- Names stay apart exactly when they are apart in all tables that are given. -/
theorem keepsNames_iff {r : Request} (h : Table.NamesApart r.tables) (steps : List Assignment) :
    r.KeepsNames steps ↔
      ∀ tables ∈ steps.filterMap Assignment.tables?, Table.NamesApart tables := by
  induction steps generalizing r with
  | nil => simp [KeepsNames]
  | cons a steps ih =>
    have ha := assigned r a
    have hstep : (∀ tables, a.tables? = some tables → Table.NamesApart tables) ↔
        Table.NamesApart (shape.assign r a.name a.value).1.tables := by
      rw [ha.tables]
      cases a.tables? <;> simp [h]
    have hsplit : (∀ tables ∈ (a :: steps).filterMap Assignment.tables?, Table.NamesApart tables) ↔
        (∀ tables, a.tables? = some tables → Table.NamesApart tables) ∧
          ∀ tables ∈ steps.filterMap Assignment.tables?, Table.NamesApart tables := by
      rw [List.filterMap_cons]
      cases a.tables? <;> simp
    rw [hsplit, hstep]
    constructor
    · rintro ⟨hapart, -, hrest⟩
      exact ⟨hapart, (ih hapart).mp hrest⟩
    · rintro ⟨hapart, hrest⟩
      exact ⟨hapart, fun he => (ha.refused he).resolve_right (not_not_intro hapart),
        (ih hapart).mpr hrest⟩

/-- **Assignments to a request that was read.** After any number of them the names of the tables are
apart exactly when those of the tables that were given last are, or none were given, and one more
assignment does what `Assigned` says. The names stay apart all along, and what is refused changes
nothing, exactly when no assignment gives two tables of one name. -/
theorem assignments_settled {o : Origin} {v : Value} {r : Request} (h : shape.read o v = .ok r)
    (steps : List Assignment) :
    (Table.NamesApart (shape.assignAll r steps).tables ↔
      ∀ tables ∈ (steps.filterMap Assignment.tables?).getLast?, Table.NamesApart tables) ∧
    (∀ a, Assigned (shape.assignAll r steps) a (shape.assignAll r (steps ++ [a]))
      (shape.assign (shape.assignAll r steps) a.name a.value).2) ∧
    (r.KeepsNames steps ↔
      ∀ tables ∈ steps.filterMap Assignment.tables?, Table.NamesApart tables) := by
  have hr : Table.NamesApart r.tables := rule_eq_none_iff.mp (RecordShape.rule_of_read h)
  refine ⟨?_, fun a => ?_, keepsNames_iff hr steps⟩
  · rw [tables_assignAll]
    cases (steps.filterMap Assignment.tables?).getLast? <;> simp [hr]
  · rw [RecordShape.assignAll_concat]
    exact assigned _ a

/-- Two tables of one name are refused, and stay. -/
theorem assignments_settled_clash :
    let a : Assignment :=
      ⟨"tables", .list [.object [(.text "name", .text "A")], .object [(.text "name", .text "A")]]⟩
    shape.read .document (.object []) = .ok {} ∧ ¬ ({} : Request).KeepsNames [a] ∧
      (shape.assign {} a.name a.value).2.isSome = true ∧
      ¬ Table.NamesApart (shape.assignAll {} [a]).tables := by
  intro a
  have hread : shape.read .document (.object []) = .ok {} := by decide +kernel
  have hgiven : [a].filterMap Assignment.tables? = [[{ name := "A" }, { name := "A" }]] := by
    decide +kernel
  have hclash : ¬ Table.NamesApart [{ name := "A" }, { name := "A" }] := by
    unfold Table.NamesApart
    decide +kernel
  obtain ⟨hapart, -, hkeeps⟩ := assignments_settled hread [a]
  rw [hgiven] at hapart hkeeps
  exact ⟨hread, hkeeps.not.mpr (by simpa using hclash), by decide +kernel,
    hapart.not.mpr (by simpa using hclash)⟩

end Request
end EntityScaffold
