import EntityScaffold.Proofs.OutputNames

/-!
# Requests with one more table

What is generated for a table depends on the other tables in two ways only: its entity holds the
inverse side of the foreign keys that refer to it, and its configuration names collections and
keys of the tables that it refers to. A table that is inserted into a request changes nothing
where neither way leads.

Results:
* `RelationshipMap.links_insert`: a table without foreign keys to a name adds no link under it.
* `tableNamed?_insert`: a table of another name is not found under the name.
* `Request.tableArtifacts_congr`: the files of a table depend on the relationships through its own
  links alone.
* `EntityConfiguration.ofTable_congr`: a configuration depends on the tables and the relationships
  through the tables that are referred to.
* `insertTable_unaffected`: what stays the same when a table is inserted.
-/

namespace EntityScaffold

/-- The tables that the foreign keys of a table refer to, by name. -/
def Table.principals (t : Table) : List String := t.properties.filterMap Property.principal?

theorem Table.mem_principals {t : Table} {name : String} :
    name ∈ t.principals ↔ ∃ p ∈ t.properties, p.principal? = some name :=
  List.mem_filterMap

/-- An inserted element stands between those before and those after it. -/
theorem exists_append_of_insertIdx {α : Type} {l : List α} {i : Nat} (hi : i ≤ l.length) (a : α) :
    ∃ before after, l = before ++ after ∧ l.insertIdx i a = before ++ a :: after := by
  induction l generalizing i with
  | nil =>
    obtain rfl := Nat.le_zero.mp hi
    exact ⟨[], [], rfl, rfl⟩
  | cons b l ih =>
    cases i with
    | zero => exact ⟨[], b :: l, rfl, rfl⟩
    | succ i =>
      obtain ⟨before, after, hl, hins⟩ := ih (Nat.le_of_succ_le_succ hi)
      refine ⟨b :: before, after, by rw [hl, List.cons_append], ?_⟩
      rw [List.insertIdx_succ_cons, hins, List.cons_append]

section Insert

variable {before after : List Table} {u : Table} {name : String}

/-- A table without foreign keys to a name adds no link under it. -/
theorem RelationshipMap.links_insert (h : name ∉ u.principals) :
    (ofTables (before ++ u :: after)).links name = (ofTables (before ++ after)).links name := by
  have hnone : u.inverseLinks.filter (fun l => l.1 = name) = [] := by
    refine List.filter_eq_nil_iff.mpr fun l hl => ?_
    obtain ⟨-, p, hp, hprin, -⟩ := Table.mem_inverseLinks.mp hl
    simp only [decide_eq_true_eq]
    rintro rfl
    exact h (Table.mem_principals.mpr ⟨p, hp, hprin⟩)
  simp only [links_ofTables, List.flatMap_append, List.flatMap_cons, List.filter_append, hnone,
    List.nil_append]

/-- A table of another name is not found under the name. -/
theorem tableNamed?_insert (h : u.name ≠ name) :
    tableNamed? (before ++ u :: after) name = tableNamed? (before ++ after) name := by
  have hu : (u.name == name) = false := beq_false_of_ne h
  simp only [tableNamed?, List.reverse_append, List.reverse_cons, List.append_assoc,
    List.find?_append, List.singleton_append, List.find?_cons, hu]

end Insert

/-! ## What the output for a table depends on -/

section Dependence

variable {tables tables' : List Table} {m m' : RelationshipMap} {t : Table}

theorem planCollections_congr (h : m.links t.name = m'.links t.name) :
    planCollections t m = planCollections t m' := by
  unfold planCollections
  rw [h]

/-- **The files of a table depend on the relationships through its own links alone.** -/
theorem Request.tableArtifacts_congr (r : Request) (h : m.links t.name = m'.links t.name) :
    r.tableArtifacts m t = r.tableArtifacts m' t := by
  have hfile : Entity.file r m t = Entity.file r m' t := by
    unfold Entity.file Entity.ofTable
    rw [planCollections_congr h]
  unfold tableArtifacts
  rw [hfile]

theorem inverseCollection?_congr {principal : String} (dependent foreignKey : String)
    (ht : tableNamed? tables principal = tableNamed? tables' principal)
    (hm : m.links principal = m'.links principal) :
    inverseCollection? tables m principal dependent foreignKey =
      inverseCollection? tables' m' principal dependent foreignKey := by
  unfold inverseCollection?
  rw [ht]
  refine Option.bind_congr fun u hu => ?_
  have hname : u.name = principal := (mem_of_tableNamed? hu).2
  rw [planCollections_congr (hname ▸ hm)]

/-- **A configuration depends on the tables and the relationships through the tables that are
referred to.** -/
theorem EntityConfiguration.ofTable_congr (r : Request)
    (ht : ∀ name ∈ t.principals, tableNamed? tables name = tableNamed? tables' name)
    (hm : ∀ name ∈ t.principals, m.links name = m'.links name) :
    EntityConfiguration.ofTable r tables m t = EntityConfiguration.ofTable r tables' m' t := by
  have hassoc : t.properties.filterMap (Association.ofProperty? tables m t) =
      t.properties.filterMap (Association.ofProperty? tables' m' t) := by
    refine List.filterMap_congr fun p hp => ?_
    unfold Association.ofProperty?
    refine Option.map_congr fun name hname => ?_
    have hmem : name ∈ t.principals := Table.mem_principals.mpr ⟨p, hp, hname⟩
    rw [inverseCollection?_congr t.name p.name (ht name hmem) (hm name hmem), ht name hmem]
  unfold EntityConfiguration.ofTable
  rw [hassoc]

end Dependence

namespace Request

/-- The request with one more table at a place. A place beyond the end leaves it as it is. -/
def insertTable (r : Request) (i : Nat) (u : Table) : Request :=
  { r with tables := r.tables.insertIdx i u }

/-- The files of one table, by path. -/
def tableFiles (r : Request) (t : Table) : List (String × String) :=
  filesByPath (r.tableArtifacts r.relationships t)

theorem insertTable_of_length_lt (r : Request) {i : Nat} (hi : r.tables.length < i) (u : Table) :
    r.insertTable i u = r := by
  unfold insertTable
  rw [List.insertIdx_of_length_lt hi]

/-- The compiled tables after an insertion: those before the place, the inserted table if it is
compiled, and those after the place. -/
theorem exists_validTables_insertTable (r : Request) {i : Nat} (hi : i ≤ r.tables.length)
    (u : Table) :
    ∃ before after, r.validTables = before ++ after ∧
      (r.insertTable i u).validTables = before ++ (onlyIf u.isValid u ++ after) := by
  obtain ⟨before, after, hr, hr'⟩ := exists_append_of_insertIdx hi u
  refine ⟨before.filter (·.isValid), after.filter (·.isValid), ?_, ?_⟩
  · rw [validTables, hr, List.filter_append]
  · unfold validTables insertTable
    rw [hr', List.filter_append, List.filter_cons]
    cases u.isValid <;> rfl

theorem mem_validTables_insertTable {r : Request} {t : Table} (ht : t ∈ r.validTables) (i : Nat)
    (u : Table) : t ∈ (r.insertTable i u).validTables := by
  obtain ⟨hmem, hvalid⟩ := List.mem_filter.mp ht
  exact List.mem_filter.mpr ⟨List.subset_insertIdx r.tables i u hmem, hvalid⟩

/-- A table that is not compiled leaves the compiled tables as they are. -/
theorem validTables_insertTable_of_not_isValid (r : Request) (i : Nat) {u : Table}
    (hu : u.isValid = false) : (r.insertTable i u).validTables = r.validTables := by
  rcases Nat.lt_or_ge r.tables.length i with hi | hi
  · rw [r.insertTable_of_length_lt hi]
  · obtain ⟨before, after, hr, hr'⟩ := r.exists_validTables_insertTable hi u
    rw [hr', hr, hu, onlyIf_false, List.nil_append]

/-- The options do not change, so the files are those of the compiled tables. -/
theorem artifacts_insertTable_of_not_isValid (r : Request) (i : Nat) {u : Table}
    (hu : u.isValid = false) : (r.insertTable i u).artifacts = r.artifacts := by
  unfold artifacts relationships
  rw [r.validTables_insertTable_of_not_isValid i hu]
  rfl

/-- Without foreign keys to a name, an inserted table adds no link under it. -/
theorem links_insertTable (r : Request) (i : Nat) {u : Table} {name : String}
    (h : name ∉ u.principals) :
    (r.insertTable i u).relationships.links name = r.relationships.links name := by
  rcases Nat.lt_or_ge r.tables.length i with hi | hi
  · rw [r.insertTable_of_length_lt hi]
  · obtain ⟨before, after, hr, hr'⟩ := r.exists_validTables_insertTable hi u
    unfold relationships
    rw [hr', hr]
    cases u.isValid with
    | true => exact RelationshipMap.links_insert h
    | false => rfl

/-- Under another name than its own an inserted table is not found. -/
theorem tableNamed?_insertTable (r : Request) (i : Nat) {u : Table} {name : String}
    (h : u.name ≠ name) :
    tableNamed? (r.insertTable i u).validTables name = tableNamed? r.validTables name := by
  rcases Nat.lt_or_ge r.tables.length i with hi | hi
  · rw [r.insertTable_of_length_lt hi]
  · obtain ⟨before, after, hr, hr'⟩ := r.exists_validTables_insertTable hi u
    rw [hr', hr]
    cases u.isValid with
    | true => exact tableNamed?_insert h
    | false => rfl

end Request

/-! ## Inserted tables -/

/-- **What stays the same when a table is inserted.** A table that is not compiled changes no file.
A table that does not refer to `t` changes no file of `t`; and if besides neither `t` refers to it
nor the two refer to one table, it does not change the configuration of `t` in the context
either. -/
theorem insertTable_unaffected (r : Request) (i : Nat) (u : Table) :
    (u.isValid = false → (r.insertTable i u).compile.files = r.compile.files) ∧
    ∀ t ∈ r.validTables, t.name ∉ u.principals →
      (r.insertTable i u).tableFiles t = r.tableFiles t ∧
      (u.name ∉ t.principals → u.principals.Disjoint t.principals →
        (r.insertTable i u).configuration t = r.configuration t ∧
        r.configuration t ∈ (r.insertTable i u).context.configurations) := by
  refine ⟨fun hu => ?_, fun t ht htu => ⟨?_, fun hut hdisjoint => ?_⟩⟩
  · rw [Request.files_compile, Request.files_compile, r.artifacts_insertTable_of_not_isValid i hu]
  · exact congrArg Request.filesByPath
      (Request.tableArtifacts_congr r (r.links_insertTable i htu))
  · have hconfiguration : (r.insertTable i u).configuration t = r.configuration t := by
      refine EntityConfiguration.ofTable_congr r (fun name hname => ?_) fun name hname => ?_
      · exact r.tableNamed?_insertTable i fun he => hut (he ▸ hname)
      · exact r.links_insertTable i fun hu => hdisjoint hu hname
    refine ⟨hconfiguration, ?_⟩
    rw [← hconfiguration]
    exact List.mem_map_of_mem (Request.mem_validTables_insertTable ht i u)

/-- A table of shipments that refers to customers, for requests about orders. -/
def Table.shipment : Table where
  name := "shipment"
  properties := [{ name := "id", isPrimaryKey := true },
    { name := "customer_id", isForeignKey := true, referencedTable := some "customer" }]

/-- Shipments leave the order lines and their configuration as they are, wherever they are put;
so does a table without columns with all files. -/
theorem insertTable_unaffected_orders :
    (Request.orders.insertTable 1 ⟨"note", [], none⟩).compile.files = Request.orders.compile.files ∧
    (Request.orders.insertTable 1 Table.shipment).tableFiles Table.orderLine =
      Request.orders.tableFiles Table.orderLine ∧
    (Request.orders.insertTable 1 Table.shipment).configuration Table.orderLine =
      Request.orders.configuration Table.orderLine := by
  obtain ⟨hfiles, -⟩ := insertTable_unaffected Request.orders 1 ⟨"note", [], none⟩
  obtain ⟨-, htable⟩ := insertTable_unaffected Request.orders 1 Table.shipment
  obtain ⟨hline, hconfiguration⟩ := htable Table.orderLine (by decide) (by decide)
  have hdisjoint : Table.shipment.principals.Disjoint Table.orderLine.principals := by
    have hshipment : Table.shipment.principals = ["customer"] := rfl
    rw [hshipment, List.singleton_disjoint]
    decide
  exact ⟨hfiles (by decide), hline, (hconfiguration (by decide) hdisjoint).1⟩

end EntityScaffold
