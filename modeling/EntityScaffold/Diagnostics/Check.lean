import EntityScaffold.Data.Optional
import EntityScaffold.Diagnostics.Finding
import EntityScaffold.Schema.DeleteBehavior
import EntityScaffold.Schema.Relationship
import EntityScaffold.Text.Identifier

/-!
# Checks of a request

The checks that a request of the right shape is put through: names that are no identifiers,
members that collide, keys that are missing or lead nowhere, bounds that contradict each other
and collections that have to be skipped. `Request.findings` runs all of them.

Model of `validate_request` and the checks it puts together: `validate_table_names`,
`validate_property_names` with `_check_identifier`, `validate_primary_keys`,
`validate_foreign_keys`, `validate_property_constraints` and `validate_inverse_collections`.
-/

namespace EntityScaffold

namespace Table

/-- What the name of a table, the `index`-th of its request, gives rise to. -/
def nameFindings (index : Nat) (t : Table) : List Finding :=
  if !t.isNamed then [.blankTable index]
  else if t.properties.isEmpty then [.emptyTable t.name]
  else onlyIf (!Text.acceptsIdentifier t.className) (.tableNotIdentifier t.name t.className)

/-- What the names of columns give rise to, after columns whose member names are seen already:
each member with the column that had it first. -/
def propertyNameFindings (t : Table) (seen : List (String × String)) :
    List Property → List Finding
  | [] => []
  | p :: ps =>
    let member := p.memberName
    onlyIf (!Text.acceptsIdentifier member) (.propertyNotIdentifier t.name p.name member) ++
    ((seen.lookup member).map fun first =>
      Finding.duplicateMember t.name first p.name member).toList ++
    onlyIf (member == t.className) (.namedLikeClass t.name p.name t.className) ++
    propertyNameFindings t
      (if (seen.lookup member).isSome then seen else (member, p.name) :: seen) ps

/-- What a foreign key gives rise to, when some tables are compiled. -/
def foreignKeyFindings (known : List String) (t : Table) (p : Property) : List Finding :=
  match p.referencedTable with
  | none => [.foreignKeyWithoutTable t.name p.name]
  | some target =>
    onlyIf (!known.contains target) (.foreignKeyOutside t.name p.name target) ++
    ((p.deleteBehavior.filter fun w => (DeleteBehavior.ofWord? w).isNone).map
      (Finding.unknownDeleteBehavior t.name p.name)).toList

/-- What the bounds and the type of a column give rise to. -/
def constraintFindings (t : Table) (p : Property) : List Finding :=
  (match p.rangeMin, p.rangeMax with
    | some low, some high => onlyIf (high.lt low) (.rangeReversed t.name p.name low high)
    | _, _ => []) ++
  (match p.minLength, p.maxLength with
    | some low, some high => onlyIf (high < low) (.lengthReversed t.name p.name low high)
    | _, _ => []) ++
  onlyIf (p.isTimestamp && p.dataType != .byteSequence) (.timestampNotBytes t.name p.name)

/-- The collections of a table that are skipped. -/
def collectionFindings (m : RelationshipMap) (t : Table) : List Finding :=
  ((planCollections t m).filter (!·.emitted)).map fun plan =>
    .skippedCollection t.name plan.link.collection plan.link.referencingTable
      plan.link.foreignKey plan.skipReason

end Table

/-- The lengths of a column. -/
def Property.lengths (p : Property) : List Int := p.minLength.toList ++ p.maxLength.toList

namespace Request

/-- Tables that are skipped, and class names that are no identifiers. -/
def tableNameFindings (r : Request) : List Finding :=
  r.tables.zipIdx.flatMap fun (t, index) => t.nameFindings index

/-- Member names that are no identifiers or collide. -/
def propertyNameFindings (r : Request) : List Finding :=
  r.validTables.flatMap fun t => t.propertyNameFindings [] t.properties

/-- Tables without primary key. -/
def primaryKeyFindings (r : Request) : List Finding :=
  (r.validTables.filter (·.primaryKeys.isEmpty)).map fun t => .noPrimaryKey t.name

/-- Foreign keys without table, with a table outside the request, or with an unknown action. -/
def foreignKeyFindings (r : Request) : List Finding :=
  let known := r.validTables.map (·.name)
  r.validTables.flatMap fun t => t.foreignKeys.flatMap (t.foreignKeyFindings known)

/-- Bounds that contradict each other and row versions that are not bytes. -/
def constraintFindings (r : Request) : List Finding :=
  r.validTables.flatMap fun t => t.properties.flatMap t.constraintFindings

/-- Collections that are skipped under a relationship map. -/
def collectionFindings (r : Request) (m : RelationshipMap) : List Finding :=
  r.validTables.flatMap (Table.collectionFindings m)

/-- Everything the checks find. -/
def findings (r : Request) (m : RelationshipMap) : List Finding :=
  r.tableNameFindings ++ r.propertyNameFindings ++ r.primaryKeyFindings ++
    r.foreignKeyFindings ++ r.constraintFindings ++ r.collectionFindings m

/-- The report of all checks under a relationship map, where its findings can be written;
`validate?` gives it only there. -/
def reportUnder (r : Request) (m : RelationshipMap) : DiagnosticReport :=
  (r.findings m).map Finding.diagnostic

/-- The report of all checks, where its findings can be written. -/
def diagnose (r : Request) : DiagnosticReport := r.reportUnder r.relationships

/-- A finding shows a length that has too many digits to be written. The findings show only lengths
that contradict each other. -/
def hasUnwritableFindings (r : Request) : Bool :=
  r.constraintFindings.any fun
    | .lengthReversed _ _ low high => isUnwritable low || isUnwritable high
    | _ => false

/-- The files show a length that has too many digits to be written. They show all lengths. -/
def hasUnwritableFiles (r : Request) : Bool :=
  r.validTables.any fun t => t.properties.any fun p => p.lengths.any isUnwritable

/-- Checks a request under a relationship map. There is no report if a finding cannot be written. -/
def validate? (r : Request) (m : RelationshipMap) : Option DiagnosticReport :=
  if r.hasUnwritableFindings then none else some (r.reportUnder m)

end Request

end EntityScaffold
