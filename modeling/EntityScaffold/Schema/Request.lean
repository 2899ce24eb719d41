import EntityScaffold.Number.Binary64
import EntityScaffold.Schema.DataType
import EntityScaffold.Schema.Style
import EntityScaffold.Text.Quoted

/-!
# Generation requests

A request describes a relational schema: tables, their columns with keys, rules and storage
facets, and the options of the code to generate. Any table may be described; only tables with a
name and at least one column are compiled (`Table.isValid`).

Model of `PropertyDefinition`, `TableDefinition`, `NamingConventionOptions` and `GenerationRequest`
with their properties and displays.
-/

namespace EntityScaffold

/-- A column of a table, which becomes a property of its entity. Texts that a request leaves blank
are absent here. -/
structure Property where
  name : String
  dataType : DataType := .text
  isNullable : Bool := true
  isPrimaryKey : Bool := false
  isForeignKey : Bool := false
  referencedTable : Option String := none
  referencedProperty : Option String := none
  navigation : Option String := none
  deleteBehavior : Option String := none
  constraintName : Option String := none
  maxLength : Option Int := none
  minLength : Option Int := none
  rangeMin : Option Binary64 := none
  rangeMax : Option Binary64 := none
  isEmailAddress : Bool := false
  isPhoneNumber : Bool := false
  isUrl : Bool := false
  regexPattern : Option String := none
  columnType : Option String := none
  isTimestamp : Bool := false
  isConcurrencyToken : Bool := false
  deriving DecidableEq

/-- A table. -/
structure Table where
  name : String := ""
  properties : List Property := []
  /-- Soft deletion for this table; `none` leaves it to the request. -/
  softDelete : Option Bool := none
  deriving DecidableEq

/-- What is put before and after class names to name repositories and services. -/
structure Naming where
  repositoryInterfacePrefix : String := "I"
  repositoryClassSuffix : String := "Repository"
  serviceInterfacePrefix : String := "I"
  serviceClassSuffix : String := "Service"
  deriving DecidableEq

/-- A whole request. -/
structure Request where
  rootNamespace : String := "MyProject.Generated"
  contextName : String := "ApplicationDbContext"
  tables : List Table := []
  serviceInterfaces : Bool := true
  services : Bool := true
  asyncOnly : Bool := true
  unitTests : Bool := false
  diExtensions : Bool := true
  softDeleteGlobally : Bool := false
  style : Style := .annotationsAndFluent
  naming : Naming := {}
  deriving DecidableEq

namespace Property

/-- The table that a foreign key refers to, if it names one. -/
def principal? (p : Property) : Option String :=
  if p.isForeignKey then p.referencedTable else none

/-- The property is a foreign key that names its table. -/
def referencesTable (p : Property) : Bool := p.principal?.isSome

/-- A property as messages show it. -/
def display (p : Property) : String :=
  let key := if p.isPrimaryKey then " PK" else ""
  let reference := match p.principal? with
    | some t => " FK→" ++ t
    | none => ""
  let null := if p.isNullable then " NULL" else " NOT NULL"
  s!"<Property {p.name} {p.dataType.token}{key}{reference}{null}>"

end Property

namespace Table

/-- The name holds more than blanks. -/
def isNamed (t : Table) : Bool := !Text.isBlank t.name

/-- The table is compiled: it has a name and at least one column. -/
def isValid (t : Table) : Bool := t.isNamed && !t.properties.isEmpty

/-- The columns of the primary key. -/
def primaryKeys (t : Table) : List Property := t.properties.filter (·.isPrimaryKey)

/-- The columns declared as foreign keys. -/
def foreignKeys (t : Table) : List Property := t.properties.filter (·.isForeignKey)

/-- The first column of a name. -/
def property? (t : Table) (name : String) : Option Property :=
  t.properties.find? fun p => p.name == name

/-- A table as messages show it. -/
def display (t : Table) : String :=
  s!"<Table {Text.quoted t.name} ({t.properties.length} props, {t.foreignKeys.length} FKs)>"

end Table

namespace Request

/-- The tables that are compiled, in the order of the request. -/
def validTables (r : Request) : List Table := r.tables.filter (·.isValid)

/-- Rows of the table are marked as deleted and not removed. -/
def softDeletes (r : Request) (t : Table) : Bool := t.softDelete.getD r.softDeleteGlobally

/-- The names of the tables that have one. -/
def tableNames (r : Request) : List String := (r.tables.filter (·.isNamed)).map (·.name)

/-- A request as messages show it. -/
def display (r : Request) : String :=
  s!"<GenerationRequest {r.rootNamespace} {r.tables.length} tables, style={r.style.token}>"

end Request

end EntityScaffold
