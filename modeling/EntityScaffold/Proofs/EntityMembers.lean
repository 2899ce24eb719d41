import EntityScaffold.Proofs.ContextReferences
import EntityScaffold.Proofs.Findings
import EntityScaffold.Proofs.Identifiers

/-!
# Which entities a clean report is right about

A clean report should mean that the members of every entity can be declared together: their names
differ from each other and from the class, and each is an identifier. The checks look at the
members of columns, and the plans keep collections away from every other member. Nothing looks at
the names of reference navigations or at the added flag for soft deletion, and a final line feed
passes as part of an identifier.

Results:
* `nodup_memberNames_iff`, `className_not_mem_memberNames_iff`, `forall_isIdentifier_iff`: what is
  left of each of the three demands when the checks have found nothing.
* `membersFit_iff_uncheckedNamesFit`: under a clean report, an entity can be declared exactly when
  the names that nothing looks at fit.
-/

namespace EntityScaffold

/-- The members of a table's entity can be declared together. -/
structure Request.MembersFit (r : Request) (t : Table) : Prop where
  nodup : (r.entityFile t).memberNames.Nodup
  ne_className : t.className ∉ (r.entityFile t).memberNames
  identifiers : ∀ n ∈ (r.entityFile t).memberNames, Text.isIdentifier n.toList = true

/-- The names that no check looks at fit as well. -/
structure Request.UncheckedNamesFit (r : Request) (t : Table) : Prop where
  /-- Reference navigations differ from each other. -/
  references_nodup : t.referenceNames.Nodup
  /-- No reference navigation shares its name with a column or the class. -/
  references_fresh : ∀ n ∈ t.referenceNames, n ∉ t.columnNames ∧ n ≠ t.className
  references_identifiers : ∀ n ∈ t.referenceNames, Text.isIdentifier n.toList = true
  /-- A flag is added only where its name is free. -/
  flag_fresh : r.addsFlag t = true →
    softDeleteMember ∉ t.columnNames ∧ softDeleteMember ∉ t.referenceNames ∧
      t.className ≠ softDeleteMember
  columns_closed : ∀ n ∈ t.columnNames, ¬ Text.endsInNewline n
  /-- No class with a foreign key to this table ends in a line feed. -/
  dependents_closed : ∀ u ∈ r.validTables, (∃ p ∈ u.properties, p.principal? = some t.name) →
    ¬ Text.endsInNewline u.className

/-! ## Collections -/

section Collections

variable {t : Table} {m : RelationshipMap} {n : String}

theorem referenceNames_subset_reservedNames (t : Table) : t.referenceNames ⊆ t.reservedNames := by
  intro n hn
  obtain ⟨p, hp, hname⟩ := List.mem_filterMap.mp hn
  obtain ⟨d, hd, rfl⟩ := Option.map_eq_some_iff.mp hname
  obtain ⟨principal, -, hnavigation⟩ := Option.bind_eq_some_iff.mp hd
  obtain ⟨navigation, hnav, rfl⟩ := Option.map_eq_some_iff.mp hnavigation
  refine List.mem_append_right _ (List.mem_filterMap.mpr ⟨p, hp, ?_⟩)
  rw [hnav]
  rfl

theorem columnNames_subset_reservedNames (t : Table) : t.columnNames ⊆ t.reservedNames :=
  fun _ hn => List.mem_append_left _ (List.mem_cons_of_mem _ hn)

/-- A collection never takes the name of another member or of the class. -/
theorem not_mem_reservedNames_of_mem_collectionNames (h : n ∈ t.collectionNames m) :
    n ∉ t.reservedNames := by
  obtain ⟨plan, hplan, rfl⟩ := List.mem_map.mp h
  obtain ⟨hmem, hemit⟩ := List.mem_filter.mp hplan
  exact collection_not_mem_of_emitted hmem hemit

theorem nodup_collectionNames (t : Table) (m : RelationshipMap) : (t.collectionNames m).Nodup :=
  emitted_collections_nodup _ _

/-- A collection is never named like its class. -/
theorem ne_className_of_mem_collectionNames (h : n ∈ t.collectionNames m) : n ≠ t.className :=
  fun he => not_mem_reservedNames_of_mem_collectionNames h
    (List.mem_append_left _ (he ▸ List.mem_cons_self))

/-- The collections of a table are named for the tables that refer to it. -/
theorem exists_collectionName_of_mem_collectionNames {tables : List Table}
    (h : n ∈ t.collectionNames (.ofTables tables)) :
    ∃ u ∈ tables, (∃ p ∈ u.properties, p.principal? = some t.name) ∧ n = u.collectionName := by
  obtain ⟨plan, hplan, rfl⟩ := List.mem_map.mp h
  obtain ⟨u, hu, -, p, hp, hprin, hlink⟩ :=
    exists_foreignKey_of_mem_planCollections (List.mem_filter.mp hplan).1
  exact ⟨u, hu, ⟨p, hp, hprin⟩, by rw [hlink, Table.inverseLink_collection]⟩

/-- The added flag does not read like a plural. -/
theorem pluralize_ne_softDeleteMember (name : String) : Text.pluralize name ≠ softDeleteMember := by
  intro h
  by_cases hne : name = ""
  · rw [hne] at h
    exact absurd h (by decide)
  · have hlast := Text.getLast?_pluralize hne
    rw [h] at hlast
    exact absurd hlast (by decide)

theorem softDeleteMember_not_mem_collectionNames (tables : List Table) (t : Table) :
    softDeleteMember ∉ t.collectionNames (.ofTables tables) := by
  intro h
  obtain ⟨u, -, -, hu⟩ := exists_collectionName_of_mem_collectionNames h
  exact pluralize_ne_softDeleteMember _ hu.symm

end Collections

/-! ## The three demands -/

section Demands

variable {r : Request} {t : Table}

theorem mem_memberNames_iff {n : String} :
    n ∈ (r.entityFile t).memberNames ↔
      n ∈ t.columnNames ∨ n ∈ t.referenceNames ∨ n ∈ t.collectionNames r.relationships ∨
        (r.addsFlag t = true ∧ n = softDeleteMember) := by
  unfold Request.entityFile Request.relationships
  rw [Entity.memberNames_file]
  simp only [List.mem_append, mem_onlyIf, or_assoc]

/-- Where columns have different names, only reference navigations and the added flag can repeat
a name. -/
theorem nodup_memberNames_iff (hc : t.columnNames.Nodup) :
    (r.entityFile t).memberNames.Nodup ↔
      t.referenceNames.Nodup ∧ (∀ n ∈ t.referenceNames, n ∉ t.columnNames) ∧
        (r.addsFlag t = true →
          softDeleteMember ∉ t.columnNames ∧ softDeleteMember ∉ t.referenceNames) := by
  have hcollections := nodup_collectionNames t r.relationships
  have hflag : (onlyIf (r.addsFlag t) softDeleteMember).Nodup := by
    cases r.addsFlag t <;> simp
  unfold Request.entityFile Request.relationships
  rw [Entity.memberNames_file, List.nodup_append', List.nodup_append', List.nodup_append']
  constructor
  · rintro ⟨⟨⟨-, hrefs, hapart⟩, -, -⟩, -, hadded⟩
    refine ⟨hrefs, fun n hn hcol => hapart hcol hn, fun hadds => ?_⟩
    have hmem : softDeleteMember ∈ onlyIf (r.addsFlag t) softDeleteMember :=
      mem_onlyIf.mpr ⟨hadds, rfl⟩
    exact ⟨fun h => hadded (List.mem_append_left _ (List.mem_append_left _ h)) hmem,
      fun h => hadded (List.mem_append_left _ (List.mem_append_right _ h)) hmem⟩
  · rintro ⟨hrefs, hapart, hadded⟩
    refine ⟨⟨⟨hc, hrefs, fun n hcol hn => hapart n hn hcol⟩, hcollections, ?_⟩, hflag, ?_⟩
    · intro n hn hcollection
      refine not_mem_reservedNames_of_mem_collectionNames hcollection ?_
      rcases List.mem_append.mp hn with hn | hn
      · exact columnNames_subset_reservedNames t hn
      · exact referenceNames_subset_reservedNames t hn
    · intro n hn hmem
      obtain ⟨hadds, rfl⟩ := mem_onlyIf.mp hmem
      rcases List.mem_append.mp hn with hn | hn
      · rcases List.mem_append.mp hn with hn | hn
        · exact (hadded hadds).1 hn
        · exact (hadded hadds).2 hn
      · exact softDeleteMember_not_mem_collectionNames _ t hn

/-- Where no column is named like the class, only reference navigations and the added flag can
be. -/
theorem className_not_mem_memberNames_iff (hc : t.className ∉ t.columnNames) :
    t.className ∉ (r.entityFile t).memberNames ↔
      t.className ∉ t.referenceNames ∧ (r.addsFlag t = true → t.className ≠ softDeleteMember) := by
  have hcollections : t.className ∉ t.collectionNames r.relationships :=
    fun h => ne_className_of_mem_collectionNames h rfl
  rw [mem_memberNames_iff]
  simp only [hc, hcollections, false_or, not_or, not_and]

/-- A clean report leaves final line feeds and the names of reference navigations open. -/
theorem forall_isIdentifier_iff (hr : r.IsClean) (ht : t ∈ r.validTables) :
    (∀ n ∈ (r.entityFile t).memberNames, Text.isIdentifier n.toList = true) ↔
      (∀ n ∈ t.columnNames, ¬ Text.endsInNewline n) ∧
      (∀ n ∈ t.referenceNames, Text.isIdentifier n.toList = true) ∧
      (∀ u ∈ r.validTables, (∃ p ∈ u.properties, p.principal? = some t.name) →
        ¬ Text.endsInNewline u.className) := by
  have hcolumn : ∀ n ∈ t.columnNames,
      (Text.isIdentifier n.toList = true ↔ ¬ Text.endsInNewline n) := by
    intro n hn
    obtain ⟨p, hp, rfl⟩ := List.mem_map.mp hn
    exact Text.isIdentifier_iff_of_accepts (hr.acceptsIdentifier_memberName ht hp)
  have hcollection : ∀ u ∈ r.validTables,
      (Text.isIdentifier u.collectionName.toList = true ↔ ¬ Text.endsInNewline u.className) := by
    intro u hu
    have haccepts := hr.acceptsIdentifier_className hu
    exact (Text.isIdentifier_pluralize haccepts).trans
      (Text.isIdentifier_iff_of_accepts haccepts)
  simp only [mem_memberNames_iff]
  constructor
  · intro h
    refine ⟨fun n hn => (hcolumn n hn).mp (h n (.inl hn)),
      fun n hn => h n (.inr (.inl hn)), ?_⟩
    rintro u hu ⟨p, hp, hprin⟩
    refine (hcollection u hu).mp (h _ (.inr (.inr (.inl ?_))))
    -- the foreign key of `u` has a plan, and a clean report means that it is emitted
    have hlink : u.inverseLink p ∈ r.relationships.links t.name :=
      RelationshipMap.mem_links_ofTables.mpr
        ⟨u, hu, Request.isNamed_of_mem_validTables hu, p, hp, hprin, rfl⟩
    rw [← planCollections_map_link] at hlink
    obtain ⟨plan, hplan, hl⟩ := List.mem_map.mp hlink
    refine List.mem_map.mpr ⟨plan, List.mem_filter.mpr ⟨hplan, hr.emitted ht hplan⟩, ?_⟩
    rw [hl, Table.inverseLink_collection]
  · rintro ⟨hcolumns, hrefs, hdependents⟩ n (hn | hn | hn | ⟨-, rfl⟩)
    · exact (hcolumn n hn).mpr (hcolumns n hn)
    · exact hrefs n hn
    · obtain ⟨u, hu, hp, rfl⟩ := exists_collectionName_of_mem_collectionNames hn
      exact (hcollection u hu).mpr (hdependents u hu hp)
    · decide

end Demands

/-! ## The verdict of a clean report -/

/-- **Under a clean report, the members of an entity can be declared together exactly when the
names that no check looks at fit.** -/
theorem membersFit_iff_uncheckedNamesFit {r : Request} (hr : r.IsClean) {t : Table}
    (ht : t ∈ r.validTables) : r.MembersFit t ↔ r.UncheckedNamesFit t := by
  have hclass : t.className ∉ t.columnNames := by
    intro h
    obtain ⟨p, hp, he⟩ := List.mem_map.mp h
    exact hr.memberName_ne_className ht hp he
  have hnodup := nodup_memberNames_iff (r := r) (hr.nodup_columnNames ht)
  have hname := className_not_mem_memberNames_iff (r := r) hclass
  have hidentifiers := forall_isIdentifier_iff hr ht
  constructor
  · rintro ⟨h₁, h₂, h₃⟩
    obtain ⟨hrefs, hapart, hadded⟩ := hnodup.mp h₁
    obtain ⟨hne, hflag⟩ := hname.mp h₂
    obtain ⟨hcolumns, hident, hdependents⟩ := hidentifiers.mp h₃
    exact {
      references_nodup := hrefs
      references_fresh := fun n hn => ⟨hapart n hn, fun e => hne (e ▸ hn)⟩
      references_identifiers := hident
      flag_fresh := fun h => ⟨(hadded h).1, (hadded h).2, hflag h⟩
      columns_closed := hcolumns
      dependents_closed := hdependents }
  · intro h
    exact {
      nodup := hnodup.mpr ⟨h.references_nodup, fun n hn => (h.references_fresh n hn).1,
        fun ha => ⟨(h.flag_fresh ha).1, (h.flag_fresh ha).2.1⟩⟩
      ne_className := hname.mpr ⟨fun hn => (h.references_fresh _ hn).2 rfl,
        fun ha => (h.flag_fresh ha).2.2⟩
      identifiers := hidentifiers.mpr
        ⟨h.columns_closed, h.references_identifiers, h.dependents_closed⟩ }

/-- The members of an order line can be declared together. -/
theorem membersFit_orderLine : Request.orders.MembersFit Table.orderLine := by
  have hclean : Request.orders.IsClean := by decide
  have hvalid : Table.orderLine ∈ Request.orders.validTables := by decide
  refine (membersFit_iff_uncheckedNamesFit hclean hvalid).mpr ?_
  exact {
    references_nodup := by decide
    references_fresh := by decide
    references_identifiers := by decide
    flag_fresh := by decide
    columns_closed := by decide
    dependents_closed := by decide }

/-- A reference navigation named like the column of its key: the report is clean, and the entity
declares `OrderId` twice. -/
example :
    let r : Request := { tables := [{ Table.orderLine with
      properties := [{ Property.orderKey with
        isPrimaryKey := true, navigation := some "order_id" }] }] }
    r.IsClean ∧ ∃ t ∈ r.validTables, ¬ (r.entityFile t).memberNames.Nodup := by
  decide

end EntityScaffold
