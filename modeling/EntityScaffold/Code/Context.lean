import EntityScaffold.Code.Entity
import EntityScaffold.Schema.DeleteBehavior

/-!
# The persistence context

The context declares a set of entities for every table and configures each entity: its key, the
fluent statements of the style, one association per foreign key that names its table, and the
filter that hides rows marked as deleted. Keys, associations and filters are written whatever
the style.

Model of `generate_db_context`, `_entity_configuration`, `_association_lines` and
`_resolve_delete_behavior`.
-/

namespace EntityScaffold

/-- The configuration of one foreign key. -/
structure Association where
  /-- The reference navigation, if the foreign key names one. -/
  navigation : Option String
  principal : String
  /-- The collection of the principal's entity, if it has one for this foreign key. An entity
  without a name gives a collection without one, which cannot be named here. -/
  collection : Option String
  foreignKey : String
  /-- The member that is referred to, when it is not the principal's single key. -/
  principalKey : Option String
  onDelete : DeleteBehavior
  constraintName : Option String
  deriving DecidableEq

namespace Association

/-- The calls of an association, the first on `entity`. -/
def calls (a : Association) : List String :=
  [match a.navigation with
    | some n => s!"entity.HasOne(e => e.{n})"
    | none => s!"entity.HasOne<{a.principal}>()",
   match a.collection with
    | some c => s!".WithMany(p => p.{c})"
    | none => ".WithMany()",
   s!".HasForeignKey(e => e.{a.foreignKey})"] ++
  (a.principalKey.map fun k => s!".HasPrincipalKey(p => p.{k})").toList ++
  [s!".OnDelete(DeleteBehavior.{a.onDelete.name})"] ++
  (a.constraintName.map fun n => ".HasConstraintName(" ++ Text.regularLiteral n ++ ")").toList

/-- Ends the last of some calls with a semicolon. -/
def terminated : List String → List String
  | [] => []
  | [c] => [c ++ ";"]
  | c :: cs => c :: terminated cs

/-- An association as code, its calls after the first further in. -/
def code (a : Association) : List Code.Line :=
  match terminated a.calls with
  | [] => []
  | c :: cs => Code.line c ++ Code.indent (Code.lines cs)

/-- What happens on removal: the declared action, or else what suits the nullability. -/
def deleteBehavior (p : Property) : DeleteBehavior :=
  match p.deleteBehavior.bind DeleteBehavior.ofWord? with
  | some b => b
  | none => if p.isNullable then .clientSetNull else .cascade

/-- The column is the single key of the table. -/
def isSingleKey (t : Option Table) (column : String) : Bool :=
  match (t.map Table.primaryKeys).getD [] with
  | [key] => key.name == column
  | _ => false

/-- The association of a foreign key, if it names its table. -/
def ofProperty? (tables : List Table) (m : RelationshipMap) (t : Table) (p : Property) :
    Option Association :=
  p.principal?.map fun principal => {
    navigation := p.navigation.map Text.pascalCase
    principal := Text.pascalCase principal
    collection := (inverseCollection? tables m principal t.name p.name).filter (!·.isEmpty)
    foreignKey := p.memberName
    principalKey := (p.referencedProperty.filter fun column =>
      !isSingleKey (tableNamed? tables principal) column).map Text.pascalCase
    onDelete := deleteBehavior p
    constraintName := p.constraintName }

end Association

/-- The configuration of one entity. -/
structure EntityConfiguration where
  entity : String
  key : List String
  fluent : List FluentStatement
  associations : List Association
  /-- The member whose rows are hidden when it is set. -/
  filter : Option String

namespace EntityConfiguration

/-- The configuration of a table's entity. -/
def ofTable (r : Request) (tables : List Table) (m : RelationshipMap) (t : Table) :
    EntityConfiguration where
  entity := t.className
  key := t.primaryKeys.map Property.memberName
  fluent := r.style.fluentStatements t
  associations := t.properties.filterMap (Association.ofProperty? tables m t)
  filter := if r.softDeletes t then some (t.softDeleteColumn?.getD softDeleteMember) else none

/-- The statement that declares a key, if there is one. -/
def keyCode : List String → List String
  | [] => []
  | [k] => [s!"entity.HasKey(e => e.{k});"]
  | ks => ["entity.HasKey(e => new \x7b " ++ ", ".intercalate (ks.map ("e." ++ ·)) ++ " \x7d);"]

/-- A configuration as code. -/
def code (c : EntityConfiguration) : List Code.Line :=
  Code.line s!"modelBuilder.Entity<{c.entity}>(entity =>" ++
    Code.braced
      (Code.lines (keyCode c.key ++ c.fluent.map FluentStatement.code) ++
        c.associations.flatMap Association.code ++
        Code.lines (c.filter.map fun f => s!"entity.HasQueryFilter(e => !e.{f});").toList)
      ");"

end EntityConfiguration

/-- A persistence context. -/
structure Context where
  name : String
  /-- The class and the name of each set of entities. -/
  sets : List (String × String)
  configurations : List EntityConfiguration

namespace Context

/-- The context of tables. -/
def ofTables (r : Request) (tables : List Table) (m : RelationshipMap) : Context where
  name := r.contextName
  sets := tables.map fun t => (t.className, t.collectionName)
  configurations := tables.map (EntityConfiguration.ofTable r tables m)

/-- The line that declares a set of entities. -/
def setCode (s : String × String) : String :=
  s!"public DbSet<{s.1}> {s.2}" ++ Member.accessors ++ " = null!;"

/-- A context as code. -/
def code (c : Context) : List Code.Line :=
  Code.block s!"public class {c.name} : DbContext" <|
    Code.line s!"public {c.name}(DbContextOptions<{c.name}> options)" ++
    Code.indent (Code.line ": base(options)") ++
    Code.braced [] "" ++
    Code.blank ++
    Code.lines (c.sets.map setCode) ++
    (if c.sets.isEmpty then [] else Code.blank) ++
    Code.block "protected override void OnModelCreating(ModelBuilder modelBuilder)"
      (Code.line "base.OnModelCreating(modelBuilder);" ++
        c.configurations.flatMap fun e => Code.blank ++ e.code)

/-- The file of a context. -/
def file (r : Request) (tables : List Table) (m : RelationshipMap) : Code.SourceFile where
  usings := ["Microsoft.EntityFrameworkCore", r.home .entity]
  home := r.home .context
  body := (ofTables r tables m).code

end Context

end EntityScaffold
