import EntityScaffold.Intake.Request
import EntityScaffold.Text.Plural
import EntityScaffold.Text.Words

/-!
# Inverse relationships

A foreign key is declared by the dependent table alone; the principal table gets the inverse
side, a collection of dependents.

* `RelationshipMap.ofTables`: under the name of each referenced table, one entry per foreign key
  that refers to it, in order of declaration.
* `planCollections`: which of these entries become collections of the principal's entity. An
  entry whose collection would share its name with another member is skipped.
* `inverseCollection?`: the collection that answers to one foreign key.

Model of `resolve_inverse_relationships`, `plan_inverse_collections` and `find_inverse_collection`.
-/

namespace EntityScaffold

/-- The inverse side of one foreign key. -/
structure InverseLink where
  referencingTable : String
  foreignKey : String
  navigation : Option String := none
  collection : String
  deriving DecidableEq

/-- The fields of an inverse link as a record. -/
def InverseLink.shape : RecordShape InverseLink where
  title := "InverseRelationshipInfo"
  initial := { referencingTable := "", foreignKey := "", collection := "" }
  camel := false
  unknownKeys := .ignored
  frozen := true
  fields := [
    (Field.of "referencing_table" .text (·.referencingTable)
      fun v l => { l with referencingTable := v }).mandatory,
    (Field.of "foreign_key_property" .text (·.foreignKey)
      fun v l => { l with foreignKey := v }).mandatory,
    .of "navigation_property" (.optional .text) (·.navigation)
      fun v l => { l with navigation := v },
    (Field.of "collection_name" .text (·.collection)
      fun v l => { l with collection := v }).mandatory]

/-- Inverse links by the name of the table that they lead back from, in order of first mention. -/
abbrev RelationshipMap := List (String × List InverseLink)

namespace RelationshipMap

/-- The links of a table. -/
def links (m : RelationshipMap) (table : String) : List InverseLink := (m.lookup table).getD []

/-- The map with one more link at the end of a table's list. -/
def add : RelationshipMap → String → InverseLink → RelationshipMap
  | [], table, link => [(table, [link])]
  | entry :: rest, table, link =>
    if entry.1 = table then (entry.1, entry.2 ++ [link]) :: rest
    else entry :: add rest table link

/-- The number of links under all tables. -/
def linkCount (m : RelationshipMap) : Nat := totalOf (fun entry => entry.2.length) m

end RelationshipMap

/-- The class that stands for a table. -/
def Table.className (t : Table) : String := Text.pascalCase t.name

/-- The member that stands for a column. -/
def Property.memberName (p : Property) : String := Text.pascalCase p.name

/-- The name of a collection of a table's entities. -/
def Table.collectionName (t : Table) : String := Text.pluralize t.className

/-- The inverse links of a table's foreign keys, each with the name of the table it refers to. A
table without a name has none. -/
def Table.inverseLinks (t : Table) : List (String × InverseLink) :=
  if t.isNamed then
    t.properties.filterMap fun p =>
      p.principal?.map fun principal =>
        (principal, {
          referencingTable := t.name
          foreignKey := p.name
          navigation := p.navigation
          collection := t.collectionName })
  else []

/-- The inverse links of all foreign keys of the tables. -/
def RelationshipMap.ofTables (tables : List Table) : RelationshipMap :=
  (tables.flatMap Table.inverseLinks).foldl (fun m l => m.add l.1 l.2) []

/-- The relationships between the tables that are compiled. -/
def Request.relationships (r : Request) : RelationshipMap := .ofTables r.validTables

/-- What becomes of one inverse link in the entity of its principal. -/
structure CollectionPlan where
  link : InverseLink
  emitted : Bool
  deriving DecidableEq

/-- Why a link is skipped; empty for a link that is not. -/
def CollectionPlan.skipReason (p : CollectionPlan) : String :=
  if p.emitted then "" else "name conflicts with an existing member"

/-- The class of the collection's elements. -/
def CollectionPlan.elementType (p : CollectionPlan) : String :=
  Text.pascalCase p.link.referencingTable

/-- The names that no collection of the table's entity may have: its class name and the names of
its other declared members. -/
def Table.reservedNames (t : Table) : List String :=
  t.className :: t.properties.map Property.memberName ++
    t.properties.filterMap fun p => p.navigation.map Text.pascalCase

/-- The plans for links when some names are taken. -/
def planLinks (taken : List String) : List InverseLink → List CollectionPlan
  | [] => []
  | l :: ls =>
    if taken.contains l.collection then ⟨l, false⟩ :: planLinks taken ls
    else ⟨l, true⟩ :: planLinks (l.collection :: taken) ls

/-- The plans for all inverse links of a table, in the order of the map. -/
def planCollections (t : Table) (m : RelationshipMap) : List CollectionPlan :=
  planLinks t.reservedNames (m.links t.name)

/-- The last table of a name. -/
def tableNamed? (tables : List Table) (name : String) : Option Table :=
  tables.reverse.find? fun t => t.name == name

/-- The collection that the principal's entity declares for a foreign key of a dependent table. -/
def inverseCollection? (tables : List Table) (m : RelationshipMap)
    (principal dependent foreignKey : String) : Option String :=
  (tableNamed? tables principal).bind fun t =>
    ((planCollections t m).find? fun plan =>
      plan.emitted && plan.link.referencingTable == dependent &&
        plan.link.foreignKey == foreignKey).map (·.link.collection)

end EntityScaffold
