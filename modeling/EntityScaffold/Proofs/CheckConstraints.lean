import EntityScaffold.Proofs.ContextReferences
import EntityScaffold.Proofs.ContextStatements
import EntityScaffold.Proofs.Findings
import EntityScaffold.Proofs.Styles
import EntityScaffold.Proofs.Words

/-!
# Check constraints can be told apart

The name of a check constraint is a class, a member and a word for the rule, joined by underscores.
None of the three has an underscore of its own, so the name can be taken apart again, and as classes
and members are different, so are the names.

* `CheckConstraint`: a rule for a member of a class.
* `constraintParts?`: what a name is put together from.
* `Request.ConstraintsApart`: what is said of the check constraints of a request.

Results:
* `constraintParts?_name`: names are taken apart into what they were put together from.
* `Context.constraintStatements_eq`: the check constraints that stand in the context.
* `mem_constraints_iff`: they are those of the columns with bounds.
* `constraints_apart`: no two of them have the same name.
-/

namespace EntityScaffold

/-- A rule for a member of a class. -/
structure CheckConstraint where
  entity : String
  member : String
  rule : CheckRule
  deriving DecidableEq

namespace CheckConstraint

/-- The name of the constraint. -/
def name (k : CheckConstraint) : String := constraintName k.entity k.member k.rule

/-- The start of the statement of a constraint. Its name follows. -/
def head : String := "entity.ToTable(t => t.HasCheckConstraint(\""

/-- The statement of a constraint. -/
def code (k : CheckConstraint) : String :=
  head ++ k.name ++ "\", " ++ Text.regularLiteral (k.rule.condition k.member) ++ "));"

end CheckConstraint

/-! ## Names -/

/-- What the name of a check constraint is put together from: a class, a member and a word. -/
def constraintParts? (name : String) : Option (String × String × String) :=
  match name.toList.splitOn '_' with
  | [['C', 'K'], entity, member, word] =>
    some (String.ofList entity, String.ofList member, String.ofList word)
  | _ => none

theorem CheckRule.underscore_not_mem_word (rule : CheckRule) : '_' ∉ rule.word.toList := by
  cases rule with
  | range => exact (by decide : '_' ∉ "Range".toList)
  | minLength => exact (by decide : '_' ∉ "MinLength".toList)

/-- **A name is taken apart into what it was put together from**, unless there are underscores in
that. -/
theorem constraintParts?_name {k : CheckConstraint} (hentity : '_' ∉ k.entity.toList)
    (hmember : '_' ∉ k.member.toList) :
    constraintParts? k.name = some (k.entity, k.member, k.rule.word) := by
  have hjoined : k.name.toList =
      ['_'].intercalate ["CK".toList, k.entity.toList, k.member.toList, k.rule.word.toList] := by
    have hname : k.name = "CK_" ++ k.entity ++ "_" ++ k.member ++ "_" ++ k.rule.word := rfl
    simp [hname, List.intercalate]
  have hnone : ∀ part ∈ ["CK".toList, k.entity.toList, k.member.toList, k.rule.word.toList],
      '_' ∉ part := by
    simp only [List.forall_mem_cons]
    exact ⟨by decide, hentity, hmember, k.rule.underscore_not_mem_word, nofun⟩
  have hsplit : k.name.toList.splitOn '_' =
      [['C', 'K'], k.entity.toList, k.member.toList, k.rule.word.toList] := by
    rw [hjoined, List.splitOn_intercalate '_' hnone (List.cons_ne_nil _ _)]
    rfl
  unfold constraintParts?
  rw [hsplit]
  simp only [String.ofList_toList]

/-! ## Constraints in the context -/

/-- The constraint of a statement. -/
def FluentStatement.constraint? : FluentStatement → Option CheckConstraint
  | .storage .. => none
  | .check entity member rule => some ⟨entity, member, rule⟩
  | .note .. => none

namespace Context

/-- The constraints of all configurations. -/
def constraints (c : Context) : List CheckConstraint :=
  c.configurations.flatMap fun e => e.fluent.filterMap FluentStatement.constraint?

/-- The statements of the context that start like a constraint. -/
def constraintStatements (c : Context) : List String :=
  (Code.textsAt 3 c.code).filter (Code.startsWith CheckConstraint.head)

end Context

/-- Only constraints start like one. -/
theorem FluentStatement.filter_code (f : FluentStatement) :
    [f.code].filter (Code.startsWith CheckConstraint.head) =
      (f.constraint?.map CheckConstraint.code).toList := by
  have hstorage : Code.Apart CheckConstraint.head "entity.Property(e => e." := by decide
  have hnote : Code.Apart CheckConstraint.head "// " := by decide
  cases f with
  | storage member calls =>
    exact Code.filter_singleton_eq_nil
      (hstorage.startsWith_eq_false (startsWith_storage member calls))
  | check entity member rule =>
    have hstart : Code.startsWith CheckConstraint.head (check entity member rule).code = true :=
      startsWith_check entity member rule
    rw [List.filter_cons_of_pos hstart]
    rfl
  | note member rule =>
    exact Code.filter_singleton_eq_nil (hnote.startsWith_eq_false (startsWith_note member rule))

/-- **The statements that start like a constraint are those of the constraints**, in their order. -/
theorem Context.constraintStatements_eq (c : Context) :
    c.constraintStatements = c.constraints.map CheckConstraint.code := by
  unfold constraintStatements constraints
  rw [textsAt_code, List.filter_flatMap, List.map_flatMap]
  refine List.flatMap_congr fun e _ => ?_
  rw [EntityConfiguration.filter_textsAt_code (by decide),
    EntityConfiguration.filter_keyCode (by decide), List.nil_append]
  rw [List.map_eq_flatMap, List.filter_flatMap, List.map_filterMap,
    List.filterMap_eq_flatMap_toList]
  exact List.flatMap_congr fun f _ => f.filter_code

/-! ## Constraints of columns -/

namespace Property

/-- The rules for a column. -/
def checkRules (p : Property) : List CheckRule :=
  onlyIf p.hasRange (.range p.rangeMin p.rangeMax) ++ (p.minLength.map CheckRule.minLength).toList

/-- The constraint of a column that follows a rule. -/
def constraint (p : Property) (t : Table) (rule : CheckRule) : CheckConstraint :=
  ⟨t.className, p.memberName, rule⟩

variable (p : Property) (t : Table)

/-- The rules for a column are of different kinds. -/
theorem nodup_words : (p.checkRules.map CheckRule.word).Nodup := by
  unfold checkRules
  cases p.hasRange <;> cases p.minLength <;> simp [CheckRule.word]

/-- The fluent style writes a constraint for each rule, and no others. -/
theorem filterMap_propertyStatements :
    (Style.fluentOnly.propertyStatements t p).filterMap FluentStatement.constraint? =
      p.checkRules.map (p.constraint t) := by
  have hlength : (p.minLength.map fun n =>
      FluentStatement.check t.className p.memberName (.minLength n)).toList.filterMap
        FluentStatement.constraint? =
      (p.minLength.map CheckRule.minLength).toList.map (p.constraint t) := by
    cases p.minLength <;> rfl
  unfold Style.propertyStatements storageStatements validationStatements checkRules
  simp only [List.filterMap_append, filterMap_onlyIf, hlength, FluentStatement.constraint?,
    Option.toList_none, Option.toList_some, ite_self, List.nil_append, List.append_nil,
    List.map_append, map_onlyIf]
  rfl

/-- **The class, the member and the kind of rule are read off the name of a constraint**, for a
class and a member have no underscores. -/
theorem constraintParts?_constraint (rule : CheckRule) :
    constraintParts? (p.constraint t rule).name =
      some (t.className, p.memberName, rule.word) :=
  constraintParts?_name (Text.not_mem_pascalCase_of_isSeparator (by decide) t.name)
    (Text.not_mem_pascalCase_of_isSeparator (by decide) p.name)

end Property

/-- Lists in which everything says where it is from have nothing twice when they are from different
places. -/
theorem nodup_flatMap_of_key {α β γ : Type} {l : List α} {f : α → List β} {key : α → γ}
    (source : β → γ) (hl : (l.map key).Nodup) (hkey : ∀ a ∈ l, ∀ b ∈ f a, source b = key a)
    (hf : ∀ a ∈ l, (f a).Nodup) : (l.flatMap f).Nodup := by
  refine List.nodup_flatMap.mpr ⟨hf, (List.pairwise_map.mp hl).imp_of_mem ?_⟩
  intro a a' ha ha' hne b hb hb'
  exact hne ((hkey a ha b hb).symm.trans (hkey a' ha' b hb'))

/-! ## Constraints of a request -/

namespace Request

variable {r : Request}

/-- The constraints in the context are those of the columns, table by table. -/
theorem constraints_context (hstyle : r.style = .fluentOnly) :
    r.context.constraints = r.validTables.flatMap fun t => t.properties.flatMap fun p =>
      p.checkRules.map (p.constraint t) := by
  have hfluent : ∀ t, (r.configuration t).fluent = Style.fluentOnly.fluentStatements t := by
    intro t
    unfold configuration EntityConfiguration.ofTable
    rw [hstyle]
  unfold Context.constraints context Context.ofTables
  rw [List.flatMap_map]
  refine List.flatMap_congr fun t _ => ?_
  show (r.configuration t).fluent.filterMap _ = _
  rw [hfluent, Style.fluentStatements, List.filterMap_flatMap]
  exact List.flatMap_congr fun p _ => p.filterMap_propertyStatements t

theorem mem_constraints_iff (hstyle : r.style = .fluentOnly) {k : CheckConstraint} :
    k ∈ r.context.constraints ↔ ∃ t ∈ r.validTables, ∃ p ∈ t.properties, ∃ rule ∈ p.checkRules,
      k = p.constraint t rule := by
  rw [constraints_context hstyle]
  simp only [List.mem_flatMap, List.mem_map, @eq_comm _ _ k]

section Apart

variable (hclasses : (r.validTables.map Table.className).Nodup)
  (hmembers : ∀ t ∈ r.validTables, t.columnNames.Nodup)

include hclasses hmembers

/-- A name tells the table, the column and the rule. -/
theorem constraint_determined {t t' : Table} {p p' : Property} {rule rule' : CheckRule}
    (ht : t ∈ r.validTables) (ht' : t' ∈ r.validTables) (hp : p ∈ t.properties)
    (hp' : p' ∈ t'.properties) (hrule : rule ∈ p.checkRules) (hrule' : rule' ∈ p'.checkRules)
    (hname : (p.constraint t rule).name = (p'.constraint t' rule').name) :
    t = t' ∧ p = p' ∧ rule = rule' := by
  have hparts := congrArg constraintParts? hname
  rw [Property.constraintParts?_constraint, Property.constraintParts?_constraint, Option.some.injEq,
    Prod.mk.injEq, Prod.mk.injEq] at hparts
  obtain ⟨hclass, hmember, hword⟩ := hparts
  obtain rfl := List.inj_on_of_nodup_map hclasses ht ht' hclass
  obtain rfl := List.inj_on_of_nodup_map (hmembers t ht) hp hp' hmember
  exact ⟨rfl, rfl, List.inj_on_of_nodup_map p.nodup_words hrule hrule' hword⟩

/-- No constraint is written twice. -/
theorem nodup_constraints (hstyle : r.style = .fluentOnly) : r.context.constraints.Nodup := by
  rw [constraints_context hstyle]
  refine nodup_flatMap_of_key CheckConstraint.entity hclasses (fun t _ k hk => ?_) fun t ht =>
    nodup_flatMap_of_key CheckConstraint.member (hmembers t ht) (fun p _ k hk => ?_) fun p _ => ?_
  · obtain ⟨p, -, hk⟩ := List.mem_flatMap.mp hk
    obtain ⟨rule, -, rfl⟩ := List.mem_map.mp hk
    rfl
  · obtain ⟨rule, -, rfl⟩ := List.mem_map.mp hk
    rfl
  · refine List.Nodup.of_map (fun k => k.rule.word) ?_
    rw [List.map_map]
    exact p.nodup_words

/-- **No two constraints have the same name.** -/
theorem nodup_constraintNames (hstyle : r.style = .fluentOnly) :
    (r.context.constraints.map CheckConstraint.name).Nodup := by
  refine List.Nodup.map_on (fun k hk k' hk' hname => ?_)
    (nodup_constraints hclasses hmembers hstyle)
  obtain ⟨t, ht, p, hp, rule, hrule, rfl⟩ := (mem_constraints_iff hstyle).mp hk
  obtain ⟨t', ht', p', hp', rule', hrule', rfl⟩ := (mem_constraints_iff hstyle).mp hk'
  obtain ⟨rfl, rfl, rfl⟩ :=
    constraint_determined hclasses hmembers ht ht' hp hp' hrule hrule' hname
  rfl

end Apart

/-- The check constraints of a request can be told apart by their names. -/
structure ConstraintsApart (r : Request) : Prop where
  /-- What starts like a constraint in the file of the context is one, with its name. -/
  statements : (Code.textsAt 3 (Context.file r r.validTables r.relationships).body).filter
      (Code.startsWith CheckConstraint.head) = r.context.constraints.map CheckConstraint.code
  /-- The constraints are those that the columns declare. -/
  columns : ∀ k, k ∈ r.context.constraints ↔
    ∃ t ∈ r.validTables, ∃ p ∈ t.properties, ∃ rule ∈ p.checkRules, k = p.constraint t rule
  /-- No name is given twice. -/
  names : (r.context.constraints.map CheckConstraint.name).Nodup
  /-- The class, the member and the kind of rule can be read back from a name. -/
  read : ∀ k ∈ r.context.constraints,
    constraintParts? k.name = some (k.entity, k.member, k.rule.word)
  /-- So a name belongs to one rule of one column. -/
  owner : ∀ {t t' p p' rule rule'}, t ∈ r.validTables → t' ∈ r.validTables → p ∈ t.properties →
    p' ∈ t'.properties → rule ∈ p.checkRules → rule' ∈ p'.checkRules →
    (p.constraint t rule).name = (p'.constraint t' rule').name → t = t' ∧ p = p' ∧ rule = rule'

/-- **The check constraints of a request in the fluent style can be told apart**, whatever
characters the names of tables and columns hold: all that it takes is that classes are different,
and that no table is reported for two columns with one member. -/
theorem constraints_apart (hstyle : r.style = .fluentOnly)
    (hclasses : (r.validTables.map Table.className).Nodup)
    (hclean : "DUPLICATE_PROPERTY_NAME" ∉ r.diagnose.map Diagnostic.code) : r.ConstraintsApart := by
  have hmembers : ∀ t ∈ r.validTables, t.columnNames.Nodup := fun t ht =>
    nodup_columnNames ht fun first property member hmem => code_ne_of_not_mem hclean _ hmem rfl
  exact {
    statements := r.context.constraintStatements_eq
    columns := fun k => mem_constraints_iff hstyle
    names := nodup_constraintNames hclasses hmembers hstyle
    read := by
      intro k hk
      obtain ⟨t, -, p, -, rule, -, rfl⟩ := (mem_constraints_iff hstyle).mp hk
      exact p.constraintParts?_constraint t rule
    owner := constraint_determined hclasses hmembers }

/-- Names with quotes and letters outside ASCII, whose parts look like other parts. -/
theorem constraints_apart_lookalikes :
    let r : Request := { style := .fluentOnly, tables := [
      { name := "ck range", properties := [
        { name := "id", isPrimaryKey := true, minLength := some 1 },
        { name := "min_length \"ß", rangeMin := some (.finite false 1 0), minLength := some 2 }] },
      { name := "range", properties := [
        { name := "id", isPrimaryKey := true, minLength := some 1 }] }] }
    r.ConstraintsApart ∧ r.context.constraints.map CheckConstraint.name =
      ["CK_CkRange_Id_MinLength", "CK_CkRange_MinLength\"ß_Range",
        "CK_CkRange_MinLength\"ß_MinLength", "CK_Range_Id_MinLength"] := by
  intro r
  exact ⟨constraints_apart rfl (by decide +kernel) (by decide +kernel), by decide +kernel⟩

end Request

end EntityScaffold
