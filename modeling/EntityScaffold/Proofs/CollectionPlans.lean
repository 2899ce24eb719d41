import EntityScaffold.Proofs.EntityMembers

/-!
# Which inverse links become collections

The plans for a table run through its links, and every collection that is emitted takes its name
from the links after it. So the first link of each name decides about all others of that name: it
is emitted unless the name is reserved, and the others are skipped either way. Which names are
emitted does not depend on the order of the links, only which link gets the name does.

* `Table.PlansSettled`: what the plans of a table under a relationship map amount to.

Results:
* `planLinks_eq_mapIdx`: a link is emitted exactly when its collection is neither taken nor that
  of an earlier link.
* `mem_collectionNames_iff`: the emitted names are those of the links that are not reserved.
* `collectionNames_perm`: another order of the tables emits the same names.
* `count_memberNames_of_mem_collectionNames`: an emitted collection shares its name with no other
  member of its entity.
* `collections_settled`: all of it for every table and every relationship map.
-/

namespace EntityScaffold

/-! ## Plans by position -/

/-- **A link is emitted exactly when its collection is neither taken nor that of an earlier
link.** -/
theorem planLinks_eq_mapIdx (taken : List String) (ls : List InverseLink) :
    planLinks taken ls = ls.mapIdx fun i l =>
      ⟨l, decide (l.collection ∉ taken ∧ l.collection ∉ (ls.take i).map (·.collection))⟩ := by
  -- each emitted name joins what is taken, so the statement is about any such list
  induction ls generalizing taken with
  | nil => rfl
  | cons l ls ih =>
    rw [List.mapIdx_cons]
    unfold planLinks
    by_cases hl : l.collection ∈ taken
    · rw [if_pos (List.contains_iff_mem.mpr hl), ih]
      refine congrArg₂ List.cons (by simp [hl]) (congrArg (List.mapIdx · ls) ?_)
      funext i l'
      -- the skipped link takes nothing that was not taken before
      have htaken : l'.collection ∉ taken → l'.collection ≠ l.collection :=
        fun h he => h (he ▸ hl)
      simp only [List.take_succ_cons, List.map_cons, List.mem_cons, not_or]
      congr 2
      exact propext ⟨fun h => ⟨h.1, htaken h.1, h.2⟩, fun h => ⟨h.1, h.2.2⟩⟩
    · rw [if_neg (by simpa using hl), ih]
      refine congrArg₂ List.cons (by simp [hl]) (congrArg (List.mapIdx · ls) ?_)
      funext i l'
      simp only [List.take_succ_cons, List.map_cons, List.mem_cons, not_or]
      congr 2
      exact propext ⟨fun h => ⟨h.1.2, h.1.1, h.2⟩, fun h => ⟨⟨h.2.1, h.1⟩, h.2.2⟩⟩

/-! ## Names by membership -/

/-- The emitted names are those of the links that are not taken. -/
theorem mem_emitted_iff {taken : List String} {ls : List InverseLink} {n : String} :
    n ∈ ((planLinks taken ls).filter (·.emitted)).map (·.link.collection) ↔
      n ∈ ls.map (·.collection) ∧ n ∉ taken := by
  induction ls generalizing taken with
  | nil => simp [planLinks]
  | cons l ls ih =>
    unfold planLinks
    by_cases hl : l.collection ∈ taken
    · rw [if_pos (List.contains_iff_mem.mpr hl), List.filter_cons_of_neg (by simp), ih,
        List.map_cons, List.mem_cons]
      constructor
      · rintro ⟨hn, hfree⟩
        exact ⟨.inr hn, hfree⟩
      · rintro ⟨rfl | hn, hfree⟩
        · exact absurd hl hfree
        · exact ⟨hn, hfree⟩
    · rw [if_neg (by simpa using hl), List.filter_cons_of_pos rfl, List.map_cons, List.mem_cons, ih,
        List.map_cons, List.mem_cons, List.mem_cons, not_or]
      constructor
      · rintro (rfl | ⟨hn, -, hfree⟩)
        · exact ⟨.inl rfl, hl⟩
        · exact ⟨.inr hn, hfree⟩
      · rintro ⟨hn, hfree⟩
        by_cases he : n = l.collection
        · exact .inl he
        · exact .inr ⟨hn.resolve_left he, he, hfree⟩

section Tables

variable {t : Table} {m : RelationshipMap} {tables tables' : List Table} {n : String}

/-- **The emitted names are those of the links that are not reserved.** -/
theorem mem_collectionNames_iff :
    n ∈ t.collectionNames m ↔
      n ∈ (m.links t.name).map (·.collection) ∧ n ∉ t.reservedNames := mem_emitted_iff

/-- Another order of the tables leads to the same links in another order. -/
theorem RelationshipMap.links_perm (h : tables.Perm tables') (name : String) :
    ((ofTables tables).links name).Perm ((ofTables tables').links name) := by
  rw [links_ofTables, links_ofTables]
  exact ((h.flatMap_right _).filter _).map _

/-- **Another order of the tables emits the same names.** -/
theorem collectionNames_perm (h : tables.Perm tables') (t : Table) :
    (t.collectionNames (.ofTables tables)).Perm (t.collectionNames (.ofTables tables')) := by
  refine (List.perm_ext_iff_of_nodup (nodup_collectionNames _ _) (nodup_collectionNames _ _)).mpr
    fun n => ?_
  rw [mem_collectionNames_iff, mem_collectionNames_iff,
    ((RelationshipMap.links_perm h t.name).map _).mem_iff]

/-- The names of the collections that a file declares. -/
theorem mem_collectionNames_iff_declared (r : Request) :
    n ∈ t.collectionNames (.ofTables tables) ↔
      ∃ element, ⟨"ICollection<" ++ element ++ ">", n⟩ ∈
        (Entity.file r (.ofTables tables) t).declarations := by
  simp only [Entity.collection_mem_declarations_iff]
  constructor
  · intro h
    obtain ⟨plan, hplan, rfl⟩ := List.mem_map.mp h
    obtain ⟨hmem, hemit⟩ := List.mem_filter.mp hplan
    exact ⟨plan.elementType, plan, hmem, hemit, rfl, rfl⟩
  · rintro ⟨element, plan, hmem, hemit, -, rfl⟩
    exact List.mem_map.mpr ⟨plan, List.mem_filter.mpr ⟨hmem, hemit⟩, rfl⟩

/-- **A collection shares its name with no other member of its entity**, be it a column, a
reference navigation, another collection or the added flag. -/
theorem count_memberNames_of_mem_collectionNames (r : Request)
    (h : n ∈ t.collectionNames (.ofTables tables)) :
    (Entity.file r (.ofTables tables) t).memberNames.count n = 1 := by
  have hfree := not_mem_reservedNames_of_mem_collectionNames h
  have hcolumn : n ∉ t.columnNames := fun hn => hfree (columnNames_subset_reservedNames t hn)
  have hreference : n ∉ t.referenceNames :=
    fun hn => hfree (referenceNames_subset_reservedNames t hn)
  have hflag : n ∉ onlyIf (r.addsFlag t) softDeleteMember := by
    intro hn
    obtain ⟨-, rfl⟩ := mem_onlyIf.mp hn
    exact softDeleteMember_not_mem_collectionNames tables t h
  rw [Entity.memberNames_file, List.count_append, List.count_append, List.count_append,
    List.count_eq_zero_of_not_mem hcolumn, List.count_eq_zero_of_not_mem hreference,
    List.count_eq_one_of_mem (nodup_collectionNames _ _) h, List.count_eq_zero_of_not_mem hflag]

end Tables

/-! ## The collections of an entity -/

/-- What the plans of a table amount to. -/
structure Table.PlansSettled (t : Table) (m : RelationshipMap) : Prop where
  /-- Every link has one plan, in its place. It is emitted exactly when its collection is neither
  reserved nor that of an earlier link. -/
  plans : planCollections t m = (m.links t.name).mapIdx fun i l =>
    ⟨l, decide (l.collection ∉ t.reservedNames ∧
      l.collection ∉ ((m.links t.name).take i).map (·.collection))⟩
  /-- The emitted names are those of the links that are not reserved. -/
  names : ∀ n, n ∈ t.collectionNames m ↔
    n ∈ (m.links t.name).map (·.collection) ∧ n ∉ t.reservedNames

/-- The collections of a table under the relationships of some tables. -/
structure Table.CollectionsSettled (t : Table) (tables : List Table) : Prop where
  /-- Another order of the tables emits the same names. -/
  order : ∀ tables', tables.Perm tables' →
    (t.collectionNames (.ofTables tables)).Perm (t.collectionNames (.ofTables tables'))
  /-- No collection is named like the class. -/
  className : ∀ n ∈ t.collectionNames (.ofTables tables), n ≠ t.className
  /-- The collections that the file of the entity declares have these names. -/
  declared : ∀ (r : Request) n, n ∈ t.collectionNames (.ofTables tables) ↔
    ∃ element, ⟨"ICollection<" ++ element ++ ">", n⟩ ∈
      (Entity.file r (.ofTables tables) t).declarations
  /-- No collection shares its name with another member that the file declares. -/
  member : ∀ r : Request, ∀ n ∈ t.collectionNames (.ofTables tables),
    (Entity.file r (.ofTables tables) t).memberNames.count n = 1

/-- **What decides about the collections of a table**: for any relationship map the names of links
alone, first come first served; for the map of any tables, whatever their order, names that fit
into the entity. -/
theorem collections_settled (t : Table) :
    (∀ m, t.PlansSettled m) ∧ ∀ tables, t.CollectionsSettled tables :=
  ⟨fun _ => ⟨planLinks_eq_mapIdx _ _, fun _ => mem_collectionNames_iff⟩,
    fun _ => {
      order := fun _ h => collectionNames_perm h t
      className := fun _ h => ne_className_of_mem_collectionNames h
      declared := fun r _ => mem_collectionNames_iff_declared r
      member := fun r _ h => count_memberNames_of_mem_collectionNames r h }⟩

/-- Of two tables with one collection the first gets it, whichever that is. -/
example :
    let shelf : Table := { name := "shelf" }
    let onShelf (name : String) : Table := { name, properties :=
      [{ name := "shelf_id", isForeignKey := true, referencedTable := some "shelf" }] }
    let given (tables : List Table) :=
      ((planCollections shelf (.ofTables tables)).filter (·.emitted)).map fun plan =>
        (plan.link.referencingTable, plan.link.collection)
    given [onShelf "box", onShelf "boxe"] = [("box", "Boxes")] ∧
      given [onShelf "boxe", onShelf "box"] = [("boxe", "Boxes")] := by
  decide +kernel

end EntityScaffold
