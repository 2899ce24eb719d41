import EntityScaffold.Schema.Relationship
import Mathlib.Data.List.Nodup

/-!
# Inverse links and the collections planned for them

The relationship map is filled link by link, and the plans for a table run through its links with
a growing set of taken names. Here both are read as what they amount to.

Results:
* `RelationshipMap.links_ofTables`: under a name stand the inverse links that lead back from it,
  in the order of tables and columns; `mem_links_ofTables` names the foreign key behind each.
* `planLinks_map_link`: every link has exactly one plan, in its place.
* `collection_not_mem_of_emitted`, `emitted_collections_nodup`: the collections that are emitted
  avoid the taken names and each other.
* `tableNamed?_of_mem`: where names are unique, a table is found under its name.
* `exists_plan_of_inverseCollection?`: a collection that is found for a foreign key is one that
  was planned and emitted for it.
-/

namespace EntityScaffold

/-! ## The links under a name -/

namespace RelationshipMap

theorem links_nil (name : String) : links [] name = [] := rfl

theorem links_cons (entry : String × List InverseLink) (m : RelationshipMap) (name : String) :
    links (entry :: m) name = if entry.1 = name then entry.2 else links m name := by
  unfold links
  rw [List.lookup_cons]
  by_cases h : entry.1 = name
  · simp [h]
  · have hb : (name == entry.1) = false := beq_false_of_ne (Ne.symm h)
    simp [h, hb]

/-- A link is added at the end of its table's list and of no other. -/
theorem links_add (m : RelationshipMap) (table name : String) (link : InverseLink) :
    (m.add table link).links name =
      if table = name then m.links name ++ [link] else m.links name := by
  induction m with
  | nil =>
    simp only [add, links_cons, links_nil, List.nil_append]
  | cons entry rest ih =>
    unfold add
    by_cases ht : entry.1 = table
    · rw [if_pos ht, links_cons, links_cons]
      by_cases hn : entry.1 = name
      · simp [hn, ← ht]
      · have : table ≠ name := ht ▸ hn
        simp [hn, this]
    · rw [if_neg ht, links_cons, links_cons, ih]
      by_cases hn : entry.1 = name
      · have : table ≠ name := fun e => ht (hn.trans e.symm)
        simp [hn, this]
      · simp [hn]

theorem links_foldl_add (pairs : List (String × InverseLink)) (m : RelationshipMap)
    (name : String) :
    (pairs.foldl (fun m l => m.add l.1 l.2) m).links name =
      m.links name ++ (pairs.filter fun l => l.1 = name).map Prod.snd := by
  induction pairs generalizing m with
  | nil => simp
  | cons l ls ih =>
    rw [List.foldl_cons, ih, links_add]
    by_cases h : l.1 = name <;> simp [h]

/-- **Under a name stand exactly the links that lead back from it**, in the order of tables and
columns. -/
theorem links_ofTables (tables : List Table) (name : String) :
    (ofTables tables).links name =
      ((tables.flatMap Table.inverseLinks).filter fun l => l.1 = name).map Prod.snd := by
  unfold ofTables
  rw [links_foldl_add, links_nil, List.nil_append]

end RelationshipMap

/-- The inverse link of a foreign key of the table. -/
def Table.inverseLink (t : Table) (p : Property) : InverseLink where
  referencingTable := t.name
  foreignKey := p.name
  navigation := p.navigation
  collection := t.collectionName

theorem Table.inverseLink_collection (t : Table) (p : Property) :
    (t.inverseLink p).collection = t.collectionName := by
  rw [inverseLink]

theorem Table.inverseLinks_of_isNamed {t : Table} (h : t.isNamed = true) :
    t.inverseLinks =
      t.properties.filterMap fun p => p.principal?.map fun n => (n, t.inverseLink p) := by
  unfold inverseLinks
  rw [if_pos h]
  rfl

theorem Table.mem_inverseLinks {t : Table} {name : String} {link : InverseLink} :
    (name, link) ∈ t.inverseLinks ↔
      t.isNamed = true ∧ ∃ p ∈ t.properties, p.principal? = some name ∧ link = t.inverseLink p := by
  by_cases h : t.isNamed = true
  · rw [inverseLinks_of_isNamed h, List.mem_filterMap]
    constructor
    · rintro ⟨p, hp, hl⟩
      obtain ⟨n, hn, he⟩ := Option.map_eq_some_iff.mp hl
      obtain ⟨rfl, rfl⟩ := Prod.mk.inj he
      exact ⟨h, p, hp, hn, rfl⟩
    · rintro ⟨-, p, hp, hn, rfl⟩
      exact ⟨p, hp, by rw [hn]; rfl⟩
  · unfold inverseLinks
    rw [if_neg h]
    exact ⟨fun hm => absurd hm List.not_mem_nil, fun hm => absurd hm.1 h⟩

/-- A link under a name comes from a foreign key that refers to this name. -/
theorem RelationshipMap.mem_links_ofTables {tables : List Table} {name : String}
    {link : InverseLink} :
    link ∈ (ofTables tables).links name ↔
      ∃ t ∈ tables, t.isNamed = true ∧
        ∃ p ∈ t.properties, p.principal? = some name ∧ link = t.inverseLink p := by
  rw [links_ofTables, List.mem_map]
  constructor
  · rintro ⟨⟨n, l⟩, hf, rfl⟩
    obtain ⟨hm, hn⟩ := List.mem_filter.mp hf
    obtain ⟨t, ht, hl⟩ := List.mem_flatMap.mp hm
    have hn : n = name := by simpa using hn
    exact ⟨t, ht, Table.mem_inverseLinks.mp (hn ▸ hl)⟩
  · rintro ⟨t, ht, hl⟩
    refine ⟨(name, link), List.mem_filter.mpr ⟨?_, by simp⟩, rfl⟩
    exact List.mem_flatMap.mpr ⟨t, ht, Table.mem_inverseLinks.mpr hl⟩

/-! ## Plans -/

/-- Every link has one plan, in its place. -/
theorem planLinks_map_link (taken : List String) (ls : List InverseLink) :
    (planLinks taken ls).map CollectionPlan.link = ls := by
  induction ls generalizing taken with
  | nil => rfl
  | cons l ls ih =>
    unfold planLinks
    split <;> rw [List.map_cons, ih]

/-- What is emitted has a name that was not taken before. -/
theorem collection_not_mem_of_emitted {taken : List String} {ls : List InverseLink}
    {plan : CollectionPlan} (hp : plan ∈ planLinks taken ls) (he : plan.emitted = true) :
    plan.link.collection ∉ taken := by
  induction ls generalizing taken with
  | nil => exact absurd hp List.not_mem_nil
  | cons l ls ih =>
    unfold planLinks at hp
    split at hp
    · rcases List.mem_cons.mp hp with rfl | hp
      · exact absurd he Bool.false_ne_true
      · exact ih hp
    · rename_i hl
      rcases List.mem_cons.mp hp with rfl | hp
      · simpa using hl
      · exact fun hm => ih hp (List.mem_cons_of_mem _ hm)

/-- **No two emitted collections share a name.** -/
theorem emitted_collections_nodup (taken : List String) (ls : List InverseLink) :
    (((planLinks taken ls).filter (·.emitted)).map (·.link.collection)).Nodup := by
  induction ls generalizing taken with
  | nil => exact List.nodup_nil
  | cons l ls ih =>
    unfold planLinks
    split
    · rw [List.filter_cons_of_neg (by simp)]
      exact ih taken
    · rw [List.filter_cons_of_pos rfl, List.map_cons, List.nodup_cons]
      refine ⟨fun hm => ?_, ih _⟩
      obtain ⟨plan, hp, he⟩ := List.mem_map.mp hm
      obtain ⟨hp, hemit⟩ := List.mem_filter.mp hp
      exact collection_not_mem_of_emitted hp hemit (he ▸ List.mem_cons_self)

theorem planCollections_map_link (t : Table) (m : RelationshipMap) :
    (planCollections t m).map CollectionPlan.link = m.links t.name :=
  planLinks_map_link _ _

/-- Two emitted plans of one table with the same collection are plans of the same link. -/
theorem eq_of_emitted_of_collection_eq {t : Table} {m : RelationshipMap}
    {plan other : CollectionPlan} (hp : plan ∈ planCollections t m)
    (ho : other ∈ planCollections t m) (hpe : plan.emitted = true) (hoe : other.emitted = true)
    (h : plan.link.collection = other.link.collection) : plan = other :=
  List.inj_on_of_nodup_map (emitted_collections_nodup t.reservedNames (m.links t.name))
    (List.mem_filter.mpr ⟨hp, hpe⟩) (List.mem_filter.mpr ⟨ho, hoe⟩) h

/-- A plan of a table leads back from it along a foreign key. -/
theorem exists_foreignKey_of_mem_planCollections {tables : List Table} {t : Table}
    {plan : CollectionPlan} (h : plan ∈ planCollections t (.ofTables tables)) :
    ∃ u ∈ tables, u.isNamed = true ∧
      ∃ p ∈ u.properties, p.principal? = some t.name ∧ plan.link = u.inverseLink p := by
  apply RelationshipMap.mem_links_ofTables.mp
  rw [← planCollections_map_link]
  exact List.mem_map_of_mem h

/-! ## Looking up tables and collections -/

theorem mem_of_tableNamed? {tables : List Table} {name : String} {t : Table}
    (h : tableNamed? tables name = some t) : t ∈ tables ∧ t.name = name :=
  ⟨List.mem_reverse.mp (List.mem_of_find?_eq_some h), by simpa using List.find?_some h⟩

theorem tableNamed?_eq_none_iff {tables : List Table} {name : String} :
    tableNamed? tables name = none ↔ name ∉ tables.map Table.name := by
  simp [tableNamed?, List.find?_eq_none]

theorem tableNamed?_of_mem {tables : List Table} (hn : (tables.map Table.name).Nodup) {t : Table}
    (ht : t ∈ tables) : tableNamed? tables t.name = some t := by
  cases h : tableNamed? tables t.name with
  | none => exact absurd (List.mem_map_of_mem ht) (tableNamed?_eq_none_iff.mp h)
  | some u =>
    obtain ⟨hu, he⟩ := mem_of_tableNamed? h
    rw [List.inj_on_of_nodup_map hn hu ht he]

/-- A collection that is found for a foreign key was emitted for it. -/
theorem exists_plan_of_inverseCollection? {tables : List Table} {m : RelationshipMap}
    {principal dependent foreignKey collection : String}
    (h : inverseCollection? tables m principal dependent foreignKey = some collection) :
    ∃ t ∈ tables, t.name = principal ∧ ∃ plan ∈ planCollections t m, plan.emitted = true ∧
      plan.link.referencingTable = dependent ∧ plan.link.foreignKey = foreignKey ∧
      plan.link.collection = collection := by
  obtain ⟨t, ht, hc⟩ := Option.bind_eq_some_iff.mp h
  obtain ⟨hmem, hname⟩ := mem_of_tableNamed? ht
  obtain ⟨plan, hplan, hcol⟩ := Option.map_eq_some_iff.mp hc
  have hsat := List.find?_some hplan
  simp only [Bool.and_eq_true, beq_iff_eq] at hsat
  exact ⟨t, hmem, hname, plan, List.mem_of_find?_eq_some hplan, hsat.1.1, hsat.1.2, hsat.2, hcol⟩

end EntityScaffold
