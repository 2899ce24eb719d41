import EntityScaffold.Code.Layout
import EntityScaffold.Code.Naming
import EntityScaffold.Emission.Facets

/-!
# Entities

The entity class of a table: its columns in declared order, then the reference navigations, the
inverse collections in the order of the relationship map, and the flag for soft deletion if the
table needs one and declares none.

Model of `generate_model` and `_soft_delete_member`.
-/

namespace EntityScaffold

/-- The member that marks a row as deleted, when a table declares none itself. -/
def softDeleteMember : String := "IsDeleted"

/-- The member of the column that marks rows as deleted, if the table declares one. -/
def Table.softDeleteColumn? (t : Table) : Option String :=
  (t.properties.find? fun p =>
    Text.lower (p.name.toList.filter (· ≠ '_')) == Text.lower softDeleteMember.toList).map
      Property.memberName

/-- A part of an entity class. -/
inductive Member where
  | column (annotations : List Annotation) (type name : String)
  | reference (annotations : List Annotation) (principal name : String)
  | collection (element name : String)
  /-- A comment in place of a collection that is skipped. -/
  | skipped (link : InverseLink) (reason : String)
  | softDeleteFlag
  deriving DecidableEq

namespace Member

/-- The accessors of every member. -/
def accessors : String := " \x7b get; set; \x7d"

/-- A part as code. -/
def code : Member → List Code.Line
  | .column annotations type name =>
    Code.lines (annotations.map Annotation.code) ++
      Code.line (s!"public {type} {name}" ++ accessors)
  | .reference annotations principal name =>
    Code.lines (annotations.map Annotation.code) ++
      Code.line (s!"public virtual {principal}? {name}" ++ accessors)
  | .collection element name =>
    Code.line (s!"public virtual ICollection<{element}> {name}" ++ accessors ++
      s!" = new List<{element}>();")
  | .skipped link reason =>
    Code.line (s!"// Inverse navigation '{link.collection}' from {link.referencingTable}." ++
      s!"{link.foreignKey} skipped: {reason}.")
  | .softDeleteFlag => Code.line (s!"public bool {softDeleteMember}" ++ accessors)

end Member

/-- An entity class. -/
structure Entity where
  name : String
  tableName : String
  members : List Member

namespace Entity

/-- The member of a column. -/
def columnMember (s : Style) (t : Table) (p : Property) : Member :=
  .column (s.propertyAnnotations p t) (p.dataType.fieldType p.isNullable) p.memberName

/-- The reference navigation of a foreign key that names both its table and its navigation. -/
def referenceMember? (s : Style) (p : Property) : Option Member :=
  match p.principal?, p.navigation with
  | some principal, some navigation =>
    some (.reference (s.navigationAnnotations p) (Text.pascalCase principal)
      (Text.pascalCase navigation))
  | _, _ => none

/-- What stands for an inverse link. -/
def planMember (plan : CollectionPlan) : Member :=
  if plan.emitted then .collection plan.elementType plan.link.collection
  else .skipped plan.link plan.skipReason

/-- The entity of a table. -/
def ofTable (r : Request) (m : RelationshipMap) (t : Table) : Entity where
  name := t.className
  tableName := t.name
  members :=
    t.properties.map (columnMember r.style t) ++
    t.properties.filterMap (referenceMember? r.style) ++
    (planCollections t m).map planMember ++
    onlyIf (r.softDeletes t && t.softDeleteColumn?.isNone) .softDeleteFlag

/-- An entity as code. -/
def code (e : Entity) : List Code.Line :=
  Code.lines ["/// <summary>", s!"/// Entity mapped to table '{e.tableName}'.", "/// </summary>"] ++
    Code.block s!"public class {e.name}" (Code.spaced (e.members.map Member.code))

/-- The file of an entity. -/
def file (r : Request) (m : RelationshipMap) (t : Table) : Code.SourceFile where
  usings := r.style.entityUsings
  home := r.home .entity
  body := (ofTable r m t).code

end Entity

end EntityScaffold
