import EntityScaffold.Proofs.Characters
import EntityScaffold.Proofs.ContextReferences
import EntityScaffold.Proofs.Findings
import EntityScaffold.Proofs.Templates

/-!
# What is said about a foreign key

Where a collection is skipped, a comment in the principal's entity stands in its place, and a
warning says so; other diagnostics say that a foreign key names no table, or one outside the
request. Here it is read off the lines and the messages which foreign key they are about. Comments
and messages give it between quotes and points, so it can be told as long as the names of tables
have neither; no class that is named by an identifier stands for such a table.

* `Request.placeholders`: the comments in an entity, as the names in them.
* `Diagnostic.foreignKey?`: the foreign key that a diagnostic is about.
* `Request.NamesReadable`: tables and their collections are named without quotes and points.

Results:
* `placeholders_eq`: the comments of an entity are those for its skipped plans, in order.
* `foreignKey?_diagnostic_iff`: the diagnostics are about the foreign keys of their findings.
-/

namespace EntityScaffold

/-- Why a collection is skipped. -/
def conflictReason : String := "name conflicts with an existing member"

/-- The names in a comment that stands for a skipped collection: the collection, the table with the
foreign key, and the foreign key. -/
def placeholder? (text : String) : Option (List String) :=
  Text.fields? "// Inverse navigation '"
    ["' from ", ".", " skipped: name conflicts with an existing member."] text

/-- The comments in the entity of a table that stand for skipped collections. -/
def Request.placeholders (r : Request) (u : Table) : List (List String) :=
  (Code.textsAt 1 (r.entityFile u).body).filterMap placeholder?

/-- The names in the message about a skipped collection: the collection, the table that would have
it, the table with the foreign key, and the foreign key. -/
def conflict? (message : String) : Option (List String) :=
  Text.fields? "Inverse collection '"
    ["' on '", "' (from ", ".", ") is skipped: name conflicts with an existing member."] message

/-- The text under a key of a diagnostic's context. -/
def Diagnostic.contextText? (d : Diagnostic) (key : String) : Option String :=
  match d.context.get? key with
  | some (.text s) => some s
  | _ => none

/-- The table and the column of the foreign key that a diagnostic is about, if it is about where one
leads. -/
def Diagnostic.foreignKey? (d : Diagnostic) : Option (String × String) :=
  if d.code = "FK_WITHOUT_REFERENCED_TABLE" ∨ d.code = "FK_TARGET_NOT_IN_REQUEST" then
    match d.contextText? "table", d.contextText? "property" with
    | some table, some property => some (table, property)
    | _, _ => none
  else if d.code = "INVERSE_COLLECTION_CONFLICT" then
    match conflict? d.message with
    | some [_, _, table, property] => some (table, property)
    | _ => none
  else none

/-- The tables of the request and their collections are named without quotes and points. -/
structure Request.NamesReadable (r : Request) : Prop where
  tables : ∀ t ∈ r.validTables, '\'' ∉ t.name.toList ∧ '.' ∉ t.name.toList
  collections : ∀ t ∈ r.validTables, '\'' ∉ t.collectionName.toList

/-! ## Names that are read -/

/-- Tables whose classes are named by identifiers have neither quotes nor points in their names. -/
theorem Request.namesReadable {r : Request}
    (h : ∀ t ∈ r.validTables, Text.acceptsIdentifier t.className = true) : r.NamesReadable where
  tables t ht := by
    have free : ∀ c : Char, c.toNat < 48 → c ≠ '\n' → Text.isSeparator c = false →
        c ∉ t.name.toList := by
      intro c hc hline hseparator hmem
      exact Text.not_mem_of_acceptsIdentifier hc hline (h t ht)
        ((Text.mem_pascalCase_iff hc hseparator).mpr hmem)
    exact ⟨free '\'' (by decide) (by decide) (by decide),
      free '.' (by decide) (by decide) (by decide)⟩
  collections t ht := Text.not_mem_pluralize (by decide)
    (Text.not_mem_of_acceptsIdentifier (by decide) (by decide) (h t ht))

/-! ## Comments -/

section Placeholders

/-- Members are no comments. -/
theorem filterMap_placeholder?_member {x : Member} (h : ∀ link reason, x ≠ .skipped link reason) :
    (Code.textsAt 0 x.code).filterMap placeholder? = [] := by
  refine List.filterMap_eq_nil_iff.mpr fun text ht => Text.fields?_eq_none (by decide) ?_
  rcases Member.head?_of_mem_textsAt h ht with hhead | hhead <;> rw [hhead] <;> decide

/-- A comment is read as it was written. -/
theorem filterMap_placeholder?_skipped {link : InverseLink}
    (hcollection : '\'' ∉ link.collection.toList) (htable : '.' ∉ link.referencingTable.toList) :
    (Code.textsAt 0 (Member.skipped link conflictReason).code).filterMap placeholder? =
      [[link.collection, link.referencingTable, link.foreignKey]] := by
  have hread : placeholder? (s!"// Inverse navigation '{link.collection}' from " ++
      s!"{link.referencingTable}." ++ s!"{link.foreignKey} skipped: {conflictReason}.") =
        some [link.collection, link.referencingTable, link.foreignKey] := by
    refine Text.fields?_of_separated ?_ ?_
    · simp [toString, Text.filled, conflictReason]
    · exact ⟨⟨'\'', rfl, hcollection⟩, ⟨'.', rfl, htable⟩, trivial⟩
  unfold Member.code
  rw [Code.textsAt_line_zero]
  simp only [String.append_assoc] at hread ⊢
  exact List.filterMap_cons_some hread

/-- The link of a plan of a request's table has the names of one of its tables. -/
theorem Request.NamesReadable.link {r : Request} (hr : r.NamesReadable) {u : Table}
    {plan : CollectionPlan} (h : plan ∈ planCollections u r.relationships) :
    '\'' ∉ plan.link.collection.toList ∧ '.' ∉ plan.link.referencingTable.toList := by
  obtain ⟨t, ht, -, p, -, -, hlink⟩ := exists_foreignKey_of_mem_planCollections h
  rw [hlink, Table.inverseLink_collection]
  exact ⟨hr.collections t ht, (hr.tables t ht).2⟩

/-- The comment for a plan, if it is skipped. -/
theorem filterMap_placeholder?_plan {r : Request} (hr : r.NamesReadable) {u : Table}
    {plan : CollectionPlan} (h : plan ∈ planCollections u r.relationships) :
    (Code.textsAt 0 (Entity.planMember plan).code).filterMap placeholder? =
      onlyIf (!plan.emitted)
        [plan.link.collection, plan.link.referencingTable, plan.link.foreignKey] := by
  obtain ⟨hcollection, htable⟩ := hr.link h
  unfold Entity.planMember CollectionPlan.skipReason
  cases plan.emitted with
  | true => exact filterMap_placeholder?_member nofun
  | false => exact filterMap_placeholder?_skipped hcollection htable

/-- **The comments of an entity are those for its skipped plans, in order.** -/
theorem placeholders_eq {r : Request} (hr : r.NamesReadable) (u : Table) :
    r.placeholders u = ((planCollections u r.relationships).filter fun plan => !plan.emitted).map
      fun plan => [plan.link.collection, plan.link.referencingTable, plan.link.foreignKey] := by
  have hlines : r.placeholders u = (r.entity u).members.flatMap fun x =>
      (Code.textsAt 0 x.code).filterMap placeholder? := by
    show (Code.textsAt 1 (Entity.code _)).filterMap placeholder? = _
    unfold Entity.code
    rw [Code.textsAt_append, Code.textsAt_block_succ,
      show Code.textsAt 1 (Code.lines _) = [] from rfl, List.nil_append,
      Code.filterMap_textsAt_spaced (by decide), List.flatMap_map]
    rfl
  have columns : (u.properties.map (Entity.columnMember r.style u)).flatMap
      (fun x => (Code.textsAt 0 x.code).filterMap placeholder?) = [] := by
    refine List.flatMap_eq_nil_iff.mpr fun x hx => ?_
    obtain ⟨q, -, rfl⟩ := List.mem_map.mp hx
    exact filterMap_placeholder?_member nofun
  have references : (u.properties.filterMap (Entity.referenceMember? r.style)).flatMap
      (fun x => (Code.textsAt 0 x.code).filterMap placeholder?) = [] := by
    refine List.flatMap_eq_nil_iff.mpr fun x hx => ?_
    obtain ⟨q, -, hq⟩ := List.mem_filterMap.mp hx
    unfold Entity.referenceMember? at hq
    split at hq
    · obtain rfl := Option.some.inj hq
      exact filterMap_placeholder?_member nofun
    · cases hq
  have flag : (onlyIf (r.addsFlag u) Member.softDeleteFlag).flatMap
      (fun x => (Code.textsAt 0 x.code).filterMap placeholder?) = [] := by
    refine List.flatMap_eq_nil_iff.mpr fun x hx => ?_
    obtain ⟨-, rfl⟩ := mem_onlyIf.mp hx
    exact filterMap_placeholder?_member nofun
  have plans : ((planCollections u r.relationships).map Entity.planMember).flatMap
      (fun x => (Code.textsAt 0 x.code).filterMap placeholder?) =
      ((planCollections u r.relationships).filter fun plan => !plan.emitted).map fun plan =>
        [plan.link.collection, plan.link.referencingTable, plan.link.foreignKey] := by
    rw [List.flatMap_map, List.flatMap_congr fun plan h => filterMap_placeholder?_plan hr h]
    induction planCollections u r.relationships with
    | nil => rfl
    | cons plan l ih =>
      rw [List.flatMap_cons, List.filter_cons, ih]
      cases plan.emitted <;> rfl
  rw [hlines]
  show (u.properties.map (Entity.columnMember r.style u) ++
    u.properties.filterMap (Entity.referenceMember? r.style) ++
    (planCollections u r.relationships).map Entity.planMember ++
    onlyIf (r.addsFlag u) Member.softDeleteFlag).flatMap _ = _
  rw [List.flatMap_append, List.flatMap_append, List.flatMap_append, columns, references, flag,
    plans, List.nil_append, List.nil_append, List.append_nil]

end Placeholders

/-! ## Diagnostics -/

/-- The finding is about where a foreign key leads. -/
def Finding.isOf (t : Table) (p : Property) : Finding → Bool
  | .foreignKeyWithoutTable table property => table == t.name && property == p.name
  | .foreignKeyOutside table property _ => table == t.name && property == p.name
  | .skippedCollection _ _ table property _ => table == t.name && property == p.name
  | _ => false

section Others

variable {r : Request} {t u : Table} {p : Property}

/-- Findings about the names of tables are not about a foreign key. -/
theorem isOf_eq_false_of_mem_tableNameFindings {f : Finding} (hf : f ∈ r.tableNameFindings) :
    f.isOf t p = false := by
  obtain ⟨⟨u, index⟩, -, hf⟩ := List.mem_flatMap.mp hf
  simp only [Table.nameFindings] at hf
  split at hf
  · rw [List.mem_singleton.mp hf]
    rfl
  · split at hf
    · rw [List.mem_singleton.mp hf]
      rfl
    · rw [(mem_onlyIf.mp hf).2]
      rfl

/-- Findings about the names of columns are not about a foreign key. -/
theorem isOf_eq_false_of_mem_propertyNameFindings {f : Finding} (seen : List (String × String))
    {ps : List Property} (hf : f ∈ u.propertyNameFindings seen ps) : f.isOf t p = false := by
  induction ps generalizing seen with
  | nil => exact absurd hf List.not_mem_nil
  | cons q ps ih =>
    unfold Table.propertyNameFindings at hf
    rcases List.mem_append.mp hf with hf | hf
    · rcases List.mem_append.mp hf with hf | hf
      · rcases List.mem_append.mp hf with hf | hf
        · rw [(mem_onlyIf.mp hf).2]
          rfl
        · obtain ⟨first, -, rfl⟩ := Option.map_eq_some_iff.mp (Option.mem_toList.mp hf)
          rfl
      · rw [(mem_onlyIf.mp hf).2]
        rfl
    · exact ih _ hf

/-- Findings about bounds and row versions are not about where a foreign key leads. -/
theorem isOf_eq_false_of_mem_constraintFindings {f : Finding} {q : Property}
    (hf : f ∈ u.constraintFindings q) : f.isOf t p = false := by
  unfold Table.constraintFindings at hf
  rcases List.mem_append.mp hf with hf | hf
  · rcases List.mem_append.mp hf with hf | hf
    · split at hf
      · rw [(mem_onlyIf.mp hf).2]
        rfl
      · exact absurd hf List.not_mem_nil
    · split at hf
      · rw [(mem_onlyIf.mp hf).2]
        rfl
      · exact absurd hf List.not_mem_nil
  · rw [(mem_onlyIf.mp hf).2]
    rfl

end Others

/-- A skipped collection is reported with readable names. -/
theorem readable_of_skippedCollection {r : Request} (hr : r.NamesReadable)
    {table collection referencing foreignKey reason : String}
    (h : .skippedCollection table collection referencing foreignKey reason ∈
      r.findings r.relationships) :
    '\'' ∉ collection.toList ∧ '\'' ∉ table.toList ∧ '.' ∉ referencing.toList ∧
      reason = conflictReason := by
  -- the finding is about this foreign key, which those of other kinds are not
  let t : Table := { name := referencing }
  let p : Property := { name := foreignKey }
  have hself : (Finding.skippedCollection table collection referencing foreignKey reason).isOf t p =
      true := by
    simp [Finding.isOf, t, p]
  rcases Request.mem_findings_iff.mp h with h | h | h | h | h | h
  · rw [isOf_eq_false_of_mem_tableNameFindings h] at hself
    cases hself
  · obtain ⟨u, -, h⟩ := List.mem_flatMap.mp h
    rw [isOf_eq_false_of_mem_propertyNameFindings [] h] at hself
    cases hself
  · obtain ⟨u, -, h⟩ := List.mem_map.mp h
    cases h
  · obtain ⟨u, -, h⟩ := List.mem_flatMap.mp h
    obtain ⟨q, -, h⟩ := List.mem_flatMap.mp h
    unfold Table.foreignKeyFindings at h
    split at h
    · cases List.mem_singleton.mp h
    · rcases List.mem_append.mp h with h | h
      · cases (mem_onlyIf.mp h).2
      · obtain ⟨w, -, h⟩ := Option.map_eq_some_iff.mp (Option.mem_toList.mp h)
        cases h
  · obtain ⟨u, -, h⟩ := List.mem_flatMap.mp h
    obtain ⟨q, -, h⟩ := List.mem_flatMap.mp h
    rw [isOf_eq_false_of_mem_constraintFindings h] at hself
    cases hself
  · obtain ⟨u, hu, h⟩ := List.mem_flatMap.mp h
    obtain ⟨plan, hplan, h⟩ := List.mem_map.mp h
    obtain ⟨hmem, hskipped⟩ := List.mem_filter.mp hplan
    obtain ⟨hcollection, hreferencing⟩ := hr.link hmem
    cases h
    refine ⟨hcollection, (hr.tables u hu).1, hreferencing, ?_⟩
    unfold CollectionPlan.skipReason
    have hemitted : plan.emitted = false := by simpa using hskipped
    rw [hemitted]
    rfl

/-- The message is read as it was written. -/
theorem conflict?_message {table collection referencing foreignKey : String}
    (hcollection : '\'' ∉ collection.toList) (htable : '\'' ∉ table.toList)
    (hreferencing : '.' ∉ referencing.toList) :
    conflict? (Finding.skippedCollection table collection referencing foreignKey
      conflictReason).message = some [collection, table, referencing, foreignKey] := by
  have htext : (Finding.skippedCollection table collection referencing foreignKey
      conflictReason).message.toList = "Inverse collection '".toList ++
        Text.filled (["' on '", "' (from ", ".",
          ") is skipped: name conflicts with an existing member."].map String.toList)
          ([collection, table, referencing, foreignKey].map String.toList) := by
    show (s!"Inverse collection '{collection}' on '{table}' " ++
      s!"(from {referencing}.{foreignKey}) is skipped: {conflictReason}.").toList = _
    simp [toString, Text.filled, conflictReason]
  unfold conflict?
  exact Text.fields?_of_separated htext
    ⟨⟨'\'', rfl, hcollection⟩, ⟨'\'', rfl, htable⟩, ⟨'.', rfl, hreferencing⟩, trivial⟩

/-- A diagnostic about a skipped collection is about the foreign key in its message. -/
theorem foreignKey?_conflict (severity : Severity) (message : String) (context : Value) :
    (Diagnostic.mk severity "INVERSE_COLLECTION_CONFLICT" message context).foreignKey? =
      match conflict? message with
      | some [_, _, table, property] => some (table, property)
      | _ => none := by
  unfold Diagnostic.foreignKey?
  rw [if_neg (by simp), if_pos rfl]

/-- The kinds of findings about where a foreign key leads have codes of their own. -/
theorem foreignKey?_eq_none {d : Diagnostic}
    (h : d.code ∉ ["FK_WITHOUT_REFERENCED_TABLE", "FK_TARGET_NOT_IN_REQUEST",
      "INVERSE_COLLECTION_CONFLICT"]) : d.foreignKey? = none := by
  simp only [List.mem_cons, List.not_mem_nil, or_false, not_or] at h
  unfold Diagnostic.foreignKey?
  rw [if_neg (not_or.mpr ⟨h.1, h.2.1⟩), if_neg h.2.2]

/-- **The diagnostics are about the foreign keys of their findings.** -/
theorem foreignKey?_diagnostic_iff {r : Request} (hr : r.NamesReadable) {f : Finding}
    (hf : f ∈ r.findings r.relationships) (t : Table) (p : Property) :
    f.diagnostic.foreignKey? = some (t.name, p.name) ↔ f.isOf t p = true := by
  have hpair : ∀ table property : String, some (table, property) = some (t.name, p.name) ↔
      (table == t.name && property == p.name) = true := by
    intro table property
    simp
  have hother : f.diagnostic.code ∉ ["FK_WITHOUT_REFERENCED_TABLE", "FK_TARGET_NOT_IN_REQUEST",
      "INVERSE_COLLECTION_CONFLICT"] → f.isOf t p = false →
      (f.diagnostic.foreignKey? = some (t.name, p.name) ↔ f.isOf t p = true) := by
    intro hcode hof
    rw [foreignKey?_eq_none hcode, hof]
    exact iff_of_false (Option.some_ne_none _).symm Bool.false_ne_true
  cases f with
  | foreignKeyWithoutTable table property => exact hpair table property
  | foreignKeyOutside table property target => exact hpair table property
  | skippedCollection table collection referencing foreignKey reason =>
    obtain ⟨hcollection, htable, hreferencing, rfl⟩ := readable_of_skippedCollection hr hf
    have hforeignKey : (Finding.skippedCollection table collection referencing foreignKey
        conflictReason).diagnostic.foreignKey? = some (referencing, foreignKey) := by
      refine (foreignKey?_conflict _ _ _).trans ?_
      rw [conflict?_message hcollection htable hreferencing]
    rw [hforeignKey]
    exact hpair referencing foreignKey
  | _ => exact hother (by dsimp only [Finding.diagnostic, Finding.code]; decide) rfl

/-- The diagnostics about where a foreign key leads. -/
def Request.reportsOn (r : Request) (t : Table) (p : Property) : List Diagnostic :=
  r.diagnose.filter fun d => d.foreignKey? = some (t.name, p.name)

/-- The findings about where a foreign key leads. -/
def Request.findingsOf (r : Request) (t : Table) (p : Property) : List Finding :=
  (r.findings r.relationships).filter (Finding.isOf t p)

/-- **The diagnostics about a foreign key are those of the findings about it.** -/
theorem reportsOn_eq {r : Request} (hr : r.NamesReadable) (t : Table) (p : Property) :
    r.reportsOn t p = (r.findingsOf t p).map Finding.diagnostic := by
  unfold Request.reportsOn Request.findingsOf Request.diagnose Request.reportUnder
  rw [List.filter_map]
  refine congrArg _ (List.filter_congr fun f hf => ?_)
  exact Bool.eq_iff_iff.mpr (decide_eq_true_iff.trans (foreignKey?_diagnostic_iff hr hf t p))

end EntityScaffold
