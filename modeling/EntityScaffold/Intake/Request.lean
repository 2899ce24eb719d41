import EntityScaffold.Intake.Record
import EntityScaffold.Schema.Request
import EntityScaffold.Text.Identifier

/-!
# Requests as documents

The fields of columns, tables, naming options and requests, with the rule that no two tables of
a request share a name. `Request.ofDocument` reads a whole request, which may be wrapped in an
object under the key `request`.

Model of reading `PropertyDefinition`, `TableDefinition`, `NamingConventionOptions` and
`GenerationRequest` with their validators, and of `parse_raw_request`.
-/

namespace EntityScaffold

/-- The fields of a column. -/
def Property.shape : RecordShape Property where
  title := "PropertyDefinition"
  initial := { name := "" }
  derived := ["logical_type", "references_table"]
  fields := [
    (Field.of "name" .someText (·.name) fun v p => { p with name := v }).mandatory,
    .of "data_type" (.oneOf DataType.all DataType.token DataType.ofSpelling?) (·.dataType)
      fun v p => { p with dataType := v },
    .of "is_nullable" .bool (·.isNullable) fun v p => { p with isNullable := v },
    .of "is_primary_key" .bool (·.isPrimaryKey) fun v p => { p with isPrimaryKey := v },
    .of "is_foreign_key" .bool (·.isForeignKey) fun v p => { p with isForeignKey := v },
    .of "referenced_table_name" .textUnlessBlank (·.referencedTable)
      fun v p => { p with referencedTable := v },
    .of "referenced_property_name" .textUnlessBlank (·.referencedProperty)
      fun v p => { p with referencedProperty := v },
    .of "navigation_property_name" .textUnlessBlank (·.navigation)
      fun v p => { p with navigation := v },
    .of "delete_behavior" .textUnlessBlank (·.deleteBehavior)
      fun v p => { p with deleteBehavior := v },
    .of "custom_fk_constraint_name" .textUnlessBlank (·.constraintName)
      fun v p => { p with constraintName := v },
    .of "max_length" (.optional (.intFrom 1)) (·.maxLength) fun v p => { p with maxLength := v },
    .of "min_length" (.optional (.intFrom 0)) (·.minLength) fun v p => { p with minLength := v },
    .of "range_min" (.optional .float) (·.rangeMin) fun v p => { p with rangeMin := v },
    .of "range_max" (.optional .float) (·.rangeMax) fun v p => { p with rangeMax := v },
    .of "is_email_address" .bool (·.isEmailAddress) fun v p => { p with isEmailAddress := v },
    .of "is_phone_number" .bool (·.isPhoneNumber) fun v p => { p with isPhoneNumber := v },
    .of "is_url" .bool (·.isUrl) fun v p => { p with isUrl := v },
    .of "regex_pattern" .textUnlessBlank (·.regexPattern)
      fun v p => { p with regexPattern := v },
    .of "column_type_name" .textUnlessBlank (·.columnType) fun v p => { p with columnType := v },
    .of "is_timestamp" .bool (·.isTimestamp) fun v p => { p with isTimestamp := v },
    .of "is_concurrency_token" .bool (·.isConcurrencyToken)
      fun v p => { p with isConcurrencyToken := v }]

/-- The fields of a table. -/
def Table.shape : RecordShape Table where
  title := "TableDefinition"
  initial := {}
  derived := ["is_valid", "primary_keys", "foreign_keys"]
  fields := [
    .of "name" .text (·.name) fun v t => { t with name := v },
    .of "properties" (.list Property.shape.codec) (·.properties)
      fun v t => { t with properties := v },
    .of "enable_soft_delete" (.optional .bool) (·.softDelete)
      fun v t => { t with softDelete := v }]

/-- A fragment of a class name. -/
def fragmentCodec : Codec String := .textWhere Text.acceptsFragment .fragment readText

/-- The fields of the naming options. -/
def Naming.shape : RecordShape Naming where
  title := "NamingConventionOptions"
  initial := {}
  fields := [
    .of "repository_interface_prefix" fragmentCodec (·.repositoryInterfacePrefix)
      fun v n => { n with repositoryInterfacePrefix := v },
    .of "repository_class_suffix" fragmentCodec (·.repositoryClassSuffix)
      fun v n => { n with repositoryClassSuffix := v },
    .of "service_interface_prefix" fragmentCodec (·.serviceInterfacePrefix)
      fun v n => { n with serviceInterfacePrefix := v },
    .of "service_class_suffix" fragmentCodec (·.serviceClassSuffix)
      fun v n => { n with serviceClassSuffix := v }]

namespace Request

/-- The table names that occur more than once, in ascending order, each once. -/
def duplicateNames (r : Request) : List String :=
  let names := r.tableNames
  ((names.filter fun n => 1 < names.count n).eraseDups).mergeSort fun a b => a ≤ b

/-- No two tables share a name. -/
def uniqueNames (r : Request) : Option Rejection :=
  match r.duplicateNames with
  | [] => none
  | names => some (.duplicateTables names)

/-- The fields of a request. -/
def shape : RecordShape Request where
  title := "GenerationRequest"
  initial := {}
  derived := ["style"]
  rule := uniqueNames
  fields := [
    .of "root_namespace" (.textWhere Text.acceptsNamespace .rootNamespace readSomeText)
      (·.rootNamespace) fun v r => { r with rootNamespace := v },
    .of "db_context_name" (.textWhere Text.acceptsIdentifier .className readSomeText)
      (·.contextName) fun v r => { r with contextName := v },
    .of "tables" (.list Table.shape.codec) (·.tables) fun v r => { r with tables := v },
    .of "generate_service_interfaces" .bool (·.serviceInterfaces)
      fun v r => { r with serviceInterfaces := v },
    .of "generate_services" .bool (·.services) fun v r => { r with services := v },
    .of "async_service_only" .bool (·.asyncOnly) fun v r => { r with asyncOnly := v },
    .of "generate_unit_tests" .bool (·.unitTests) fun v r => { r with unitTests := v },
    .of "generate_di_extensions" .bool (·.diExtensions)
      fun v r => { r with diExtensions := v },
    .of "enable_soft_delete_globally" .bool (·.softDeleteGlobally)
      fun v r => { r with softDeleteGlobally := v },
    .of "configuration_style" (.oneOf Style.all Style.token Style.ofToken?) (·.style)
      fun v r => { r with style := v },
    .of "naming_conventions" Naming.shape.codec (·.naming) fun v r => { r with naming := v }]

/-- The part of a document that describes the request: what stands under `request`, if anything
does, and otherwise the document. -/
def unwrap (v : Value) : Value := (v.get? "request").getD v

/-- Reads a request from a document. -/
def ofDocument (v : Value) : Reading Request := shape.read .document (unwrap v)

end Request

/-- The report of a document that is no request. -/
def refusalMessage (fs : List Fault) : String :=
  s!"Request validation failed with {fs.length} error(s)."

end EntityScaffold
