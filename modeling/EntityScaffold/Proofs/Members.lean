import EntityScaffold.Proofs.Blocks
import EntityScaffold.Proofs.Collections
import EntityScaffold.Proofs.Declarations
import EntityScaffold.Proofs.Identifiers

/-!
# The members that an entity declares

An entity has members from four sources: its columns, the reference navigations of its foreign
keys, the inverse collections planned for it, and the added flag for soft deletion. What it declares
is read off the lines of its file.

* `Property.column`, `Property.reference?`, `CollectionPlan.collection`: a member by its type and
  its name.

Results:
* `Entity.declarations_file`: a file declares the members of the four sources, one after another,
  and nothing else; comments in place of skipped collections declare nothing.
* `Entity.memberNames_file`: so the names that it declares are theirs.
* `Entity.collection_mem_declarations_iff`: the collections that it declares are the emitted plans.
* `Entity.mem_members_iff`: every part of an entity comes from one of the four sources.
* `softDelete_mem_memberNames`: rows that are marked as deleted are marked in a declared member.
-/

namespace EntityScaffold

/-- The member of a column. -/
def Property.column (p : Property) : Code.Declaration :=
  ⟨p.dataType.fieldType p.isNullable, p.memberName⟩

/-- The reference navigation that a foreign key declares: it names its table and its
navigation. -/
def Property.reference? (p : Property) : Option Code.Declaration :=
  p.principal?.bind fun principal => p.navigation.map fun navigation =>
    ⟨Text.pascalCase principal ++ "?", Text.pascalCase navigation⟩

/-- The collection that is planned for an inverse link. -/
def CollectionPlan.collection (plan : CollectionPlan) : Code.Declaration :=
  ⟨"ICollection<" ++ plan.elementType ++ ">", plan.link.collection⟩

/-- The flag that marks rows as deleted. -/
def deletionFlag : Code.Declaration := ⟨"bool", softDeleteMember⟩

/-- The member names of the columns. -/
def Table.columnNames (t : Table) : List String := t.properties.map Property.memberName

/-- The names of the reference navigations. -/
def Table.referenceNames (t : Table) : List String :=
  t.properties.filterMap fun p => p.reference?.map Code.Declaration.name

/-- The inverse collections that are emitted under a relationship map. -/
def Table.collections (t : Table) (m : RelationshipMap) : List Code.Declaration :=
  ((planCollections t m).filter (·.emitted)).map CollectionPlan.collection

/-- The names of the inverse collections that are emitted under a relationship map. -/
def Table.collectionNames (t : Table) (m : RelationshipMap) : List String :=
  ((planCollections t m).filter (·.emitted)).map (·.link.collection)

/-- The entity of the table gets a flag for soft deletion that the table does not declare. -/
def Request.addsFlag (r : Request) (t : Table) : Bool :=
  r.softDeletes t && t.softDeleteColumn?.isNone

/-! ## Names and types without blanks -/

namespace Text

theorem blank_not_mem_pascalCase (name : String) : ' ' ∉ (pascalCase name).toList :=
  not_mem_pascalCase_of_isSeparator (by decide) name

end Text

theorem Table.blank_not_mem_className (t : Table) : ' ' ∉ t.className.toList :=
  Text.blank_not_mem_pascalCase t.name

theorem Table.blank_not_mem_collectionName (t : Table) : ' ' ∉ t.collectionName.toList :=
  Text.not_mem_pluralize (by decide) t.blank_not_mem_className

theorem DataType.fieldType_eq_word (type : DataType) (nullable : Bool) :
    ' ' ∉ (type.fieldType nullable).toList ∧ type.fieldType nullable ≠ "virtual" := by
  cases type <;> cases nullable <;> decide

namespace Entity

/-! ## What the sources declare -/

theorem declared_columnMember (s : Style) (t : Table) (p : Property) :
    (columnMember s t p).declared = [p.column] := by
  obtain ⟨hblank, hvirtual⟩ := DataType.fieldType_eq_word p.dataType p.isNullable
  exact Member.declared_column hblank hvirtual (Text.blank_not_mem_pascalCase _)

theorem declared_referenceMember? (s : Style) (p : Property) :
    (referenceMember? s p).toList.flatMap Member.declared = p.reference?.toList := by
  unfold referenceMember? Property.reference?
  cases p.principal? with
  | none => rfl
  | some principal =>
    cases p.navigation with
    | none => rfl
    | some navigation =>
      exact (List.flatMap_singleton _ _).trans (Member.declared_reference
        (Text.blank_not_mem_pascalCase _) (Text.blank_not_mem_pascalCase _))

/-- A plan for one of some tables declares its collection if it is emitted. -/
theorem declared_planMember {tables : List Table} {t : Table} {plan : CollectionPlan}
    (h : plan ∈ planCollections t (.ofTables tables)) :
    (planMember plan).declared = onlyIf plan.emitted plan.collection := by
  unfold planMember
  cases plan.emitted with
  | false => exact Member.declared_skipped _ _
  | true =>
    obtain ⟨u, -, -, p, -, -, hlink⟩ := exists_foreignKey_of_mem_planCollections h
    refine Member.declared_collection (Text.blank_not_mem_pascalCase _) ?_
    rw [hlink, Table.inverseLink_collection]
    exact u.blank_not_mem_collectionName

/-- **What a file declares**: the columns, the reference navigations, the emitted collections and
the added flag. -/
theorem declarations_file (r : Request) (tables : List Table) (t : Table) :
    (file r (.ofTables tables) t).declarations =
      t.properties.map Property.column ++ t.properties.filterMap Property.reference? ++
        t.collections (.ofTables tables) ++ onlyIf (r.addsFlag t) deletionFlag := by
  have hlines : (file r (.ofTables tables) t).declarations =
      (ofTable r (.ofTables tables) t).members.flatMap Member.declared := by
    show (Code.textsAt 1 (code _)).filterMap Code.declaration? = _
    unfold code
    rw [Code.textsAt_append, Code.textsAt_block_succ,
      show Code.textsAt 1 (Code.lines _) = [] from rfl, List.nil_append,
      Code.filterMap_textsAt_spaced (by decide), List.flatMap_map]
    rfl
  have columns : (t.properties.map (columnMember r.style t)).flatMap Member.declared =
      t.properties.map Property.column := by
    rw [List.flatMap_map, List.flatMap_congr fun p _ => declared_columnMember r.style t p]
    exact (List.map_eq_flatMap).symm
  have references : (t.properties.filterMap (referenceMember? r.style)).flatMap Member.declared =
      t.properties.filterMap Property.reference? := by
    rw [List.filterMap_eq_flatMap_toList, List.filterMap_eq_flatMap_toList, List.flatMap_assoc]
    exact List.flatMap_congr fun p _ => declared_referenceMember? r.style p
  have plans : ((planCollections t (.ofTables tables)).map planMember).flatMap Member.declared =
      t.collections (.ofTables tables) := by
    have honlyIf : ∀ l : List CollectionPlan,
        (l.flatMap fun plan => onlyIf plan.emitted plan.collection) =
          (l.filter (·.emitted)).map CollectionPlan.collection := by
      intro l
      induction l with
      | nil => rfl
      | cons plan l ih =>
        rw [List.flatMap_cons, List.filter_cons, ih]
        cases plan.emitted <;> rfl
    rw [List.flatMap_map, List.flatMap_congr fun plan h => declared_planMember h, honlyIf]
    rfl
  have flag : (onlyIf (r.addsFlag t) Member.softDeleteFlag).flatMap Member.declared =
      onlyIf (r.addsFlag t) deletionFlag := by
    cases r.addsFlag t
    · rfl
    · exact (List.flatMap_singleton _ _).trans Member.declared_softDeleteFlag
  rw [hlines]
  show (t.properties.map (columnMember r.style t) ++
      t.properties.filterMap (referenceMember? r.style) ++
      (planCollections t (.ofTables tables)).map planMember ++
      onlyIf (r.addsFlag t) Member.softDeleteFlag).flatMap Member.declared = _
  rw [List.flatMap_append, List.flatMap_append, List.flatMap_append, columns, references, plans,
    flag]

/-- **The declared names**: those of columns, reference navigations and emitted collections, and
that of the added flag. -/
theorem memberNames_file (r : Request) (tables : List Table) (t : Table) :
    (file r (.ofTables tables) t).memberNames =
      t.columnNames ++ t.referenceNames ++ t.collectionNames (.ofTables tables) ++
        onlyIf (r.addsFlag t) softDeleteMember := by
  have references : (t.properties.filterMap Property.reference?).map Code.Declaration.name =
      t.referenceNames := List.map_filterMap
  have collections : (t.collections (.ofTables tables)).map Code.Declaration.name =
      t.collectionNames (.ofTables tables) := List.map_map
  have flag : (onlyIf (r.addsFlag t) deletionFlag).map Code.Declaration.name =
      onlyIf (r.addsFlag t) softDeleteMember := by
    cases r.addsFlag t <;> rfl
  unfold Code.SourceFile.memberNames
  rw [declarations_file, List.map_append, List.map_append, List.map_append, List.map_map,
    references, collections, flag]
  rfl

/-- Where the members of an entity come from. -/
theorem mem_members_iff {r : Request} {m : RelationshipMap} {t : Table} {x : Member} :
    x ∈ (ofTable r m t).members ↔
      (∃ p ∈ t.properties, columnMember r.style t p = x) ∨
      (∃ p ∈ t.properties, referenceMember? r.style p = some x) ∨
      (∃ plan ∈ planCollections t m, planMember plan = x) ∨
      (r.addsFlag t = true ∧ x = .softDeleteFlag) := by
  simp only [ofTable, Request.addsFlag, List.mem_append, List.mem_map, List.mem_filterMap,
    mem_onlyIf, or_assoc]

/-- Every declared member comes from one of the four sources. -/
theorem mem_declarations_iff {r : Request} {tables : List Table} {t : Table}
    {d : Code.Declaration} :
    d ∈ (file r (.ofTables tables) t).declarations ↔
      (∃ p ∈ t.properties, p.column = d) ∨
      (∃ p ∈ t.properties, p.reference? = some d) ∨
      d ∈ t.collections (.ofTables tables) ∨
      (r.addsFlag t = true ∧ d = deletionFlag) := by
  rw [declarations_file]
  simp only [List.mem_append, List.mem_map, List.mem_filterMap, mem_onlyIf, or_assoc]

/-- Only a collection has a type that ends in a bracket. -/
theorem mem_collections_of_type {r : Request} {tables : List Table} {t : Table}
    {d : Code.Declaration} (hd : d ∈ (file r (.ofTables tables) t).declarations)
    (hlast : d.type.toList.getLast? = some '>') : d ∈ t.collections (.ofTables tables) := by
  rcases mem_declarations_iff.mp hd with ⟨p, -, rfl⟩ | ⟨p, -, hp⟩ | hd | ⟨-, rfl⟩
  · have hcolumn : ∀ (type : DataType) (nullable : Bool),
        (type.fieldType nullable).toList.getLast? ≠ some '>' := by
      intro type nullable
      cases type <;> cases nullable <;> decide
    exact absurd hlast (hcolumn _ _)
  · obtain ⟨principal, -, hnavigation⟩ := Option.bind_eq_some_iff.mp hp
    obtain ⟨navigation, -, rfl⟩ := Option.map_eq_some_iff.mp hnavigation
    simp at hlast
  · exact hd
  · exact absurd hlast (by decide)

/-- **The collections that a file declares are the emitted plans.** -/
theorem collection_mem_declarations_iff {r : Request} {tables : List Table} {t : Table}
    {element name : String} :
    ⟨"ICollection<" ++ element ++ ">", name⟩ ∈ (file r (.ofTables tables) t).declarations ↔
      ∃ plan ∈ planCollections t (.ofTables tables), plan.emitted = true ∧
        plan.elementType = element ∧ plan.link.collection = name := by
  constructor
  · intro h
    have hlast : ("ICollection<" ++ element ++ ">").toList.getLast? = some '>' := by
      rw [String.toList_append, List.getLast?_append]
      rfl
    obtain ⟨plan, hplan, heq⟩ := List.mem_map.mp (mem_collections_of_type h hlast)
    obtain ⟨hmem, hemit⟩ := List.mem_filter.mp hplan
    obtain ⟨htype, hname⟩ := Code.Declaration.mk.inj heq
    exact ⟨plan, hmem, hemit, by simpa using htype, hname⟩
  · rintro ⟨plan, hplan, hemit, rfl, rfl⟩
    have hmem : plan.collection ∈ t.collections (.ofTables tables) :=
      List.mem_map_of_mem (List.mem_filter.mpr ⟨hplan, hemit⟩)
    exact mem_declarations_iff.mpr (.inr (.inr (.inl hmem)))

end Entity

theorem memberName_mem_columnNames {t : Table} {p : Property} (h : p ∈ t.properties) :
    p.memberName ∈ t.columnNames := List.mem_map_of_mem h

section Sources

variable (r : Request) (tables : List Table) (t : Table)

theorem columnNames_subset_memberNames :
    t.columnNames ⊆ (Entity.file r (.ofTables tables) t).memberNames := by
  intro x hx
  rw [Entity.memberNames_file]
  simp [hx]

theorem referenceNames_subset_memberNames :
    t.referenceNames ⊆ (Entity.file r (.ofTables tables) t).memberNames := by
  intro x hx
  rw [Entity.memberNames_file]
  simp [hx]

end Sources

theorem mem_columnNames_of_softDeleteColumn? {t : Table} {name : String}
    (h : t.softDeleteColumn? = some name) : name ∈ t.columnNames := by
  obtain ⟨p, hp, rfl⟩ := Option.map_eq_some_iff.mp h
  exact memberName_mem_columnNames (List.mem_of_find?_eq_some hp)

/-- **Deleted rows are marked in a declared member**: the table's own column or the added
flag. -/
theorem softDelete_mem_memberNames {r : Request} {t : Table} (tables : List Table)
    (h : r.softDeletes t = true) :
    t.softDeleteColumn?.getD softDeleteMember ∈
      (Entity.file r (.ofTables tables) t).memberNames := by
  cases hc : t.softDeleteColumn? with
  | some name =>
    exact columnNames_subset_memberNames r tables t (mem_columnNames_of_softDeleteColumn? hc)
  | none =>
    have ha : r.addsFlag t = true := by simp [Request.addsFlag, h, hc]
    rw [Entity.memberNames_file, ha]
    simp

end EntityScaffold
