import EntityScaffold.Code.Naming
import EntityScaffold.Code.Entity
import EntityScaffold.Code.Signature

/-!
# Repositories

The generic repository with its interface, and for each table a repository that extends it.

Model of `generate_generic_repository_interface`, `generate_generic_repository`,
`generate_specific_repository_interface` and `generate_specific_repository`.
-/

namespace EntityScaffold.Repository

open Code (line lines blank indent braced block spaced SourceFile)

/-- A condition on entities. -/
def predicateType : String := "Expression<Func<TEntity, bool>>"

/-- A parameter that holds a condition. -/
def predicate : Parameter := ⟨predicateType, "predicate", none⟩

def getById : Signature :=
  ⟨"Task<TEntity?>", "GetByIdAsync",
    [⟨"object", "id", none⟩, .includeSoftDeleted, .cancellation]⟩

def getAll : Signature :=
  ⟨"Task<IReadOnlyList<TEntity>>", "GetAllAsync", [.includeSoftDeleted, .cancellation]⟩

def find : Signature :=
  ⟨"Task<IReadOnlyList<TEntity>>", "FindAsync", [predicate, .includeSoftDeleted, .cancellation]⟩

def add : Signature := ⟨"Task", "AddAsync", [⟨"TEntity", "entity", none⟩, .cancellation]⟩

def addRange : Signature :=
  ⟨"Task", "AddRangeAsync", [⟨"IEnumerable<TEntity>", "entities", none⟩, .cancellation]⟩

def update : Signature := ⟨"void", "Update", [⟨"TEntity", "entity", none⟩]⟩

def remove : Signature := ⟨"void", "Remove", [⟨"TEntity", "entity", none⟩, .hardDelete]⟩

def removeRange : Signature :=
  ⟨"void", "RemoveRange", [⟨"IEnumerable<TEntity>", "entities", none⟩, .hardDelete]⟩

def count : Signature :=
  ⟨"Task<int>", "CountAsync",
    [⟨predicateType ++ "?", "predicate", some "null"⟩, .includeSoftDeleted, .cancellation]⟩

/-- Whether a condition holds of some entity. -/
def existsAny : Signature :=
  ⟨"Task<bool>", "ExistsAsync", [predicate, .includeSoftDeleted, .cancellation]⟩

/-- The methods of the generic repository. -/
def signatures : List Signature :=
  [getById, getAll, find, add, addRange, update, remove, removeRange, count, existsAny]

/-- The file of the generic interface. -/
def genericInterfaceFile (r : Request) : SourceFile where
  usings := ["System", "System.Collections.Generic", "System.Linq.Expressions",
    "System.Threading", "System.Threading.Tasks"]
  home := r.home .repositoryInterface
  body :=
    block s!"public interface {r.genericRepositoryInterface}<TEntity> where TEntity : class"
      (signatures.flatMap Signature.declaration)

/-- A method that waits for its work. -/
def waiting (s : Signature) (body : List Code.Line) : List Code.Line :=
  Method.code ⟨"public virtual async", s, body⟩

/-- A method that does its work at once. -/
def immediate (s : Signature) (body : List Code.Line) : List Code.Line :=
  Method.code ⟨"public virtual", s, body⟩

/-- The look-up by key. Without marked rows the context's own cache serves; with them the key is
spelled out as a query. -/
def getByIdBody : List Code.Line :=
  line "var keyValues = id as object[] ?? new[] \x7b id \x7d;" ++
  block "if (!includeSoftDeleted)"
    (line "return await DbSet.FindAsync(keyValues, cancellationToken);") ++
  blank ++
  line "var key = Context.Model.FindEntityType(typeof(TEntity))?.FindPrimaryKey()" ++
  indent (line ("?? throw new InvalidOperationException(" ++
    "$\"\x7btypeof(TEntity).Name\x7d has no primary key.\");")) ++
  line "var query = DbSet.IgnoreQueryFilters();" ++
  block "for (var i = 0; i < key.Properties.Count; i++)"
    (lines [
      "var propertyName = key.Properties[i].Name;",
      "var value = keyValues[i];",
      "query = query.Where(e => Equals(EF.Property<object>(e, propertyName), value));"]) ++
  line "return await query.FirstOrDefaultAsync(cancellationToken);"

/-- Marks an entity as deleted if it can be marked and is not removed for good. -/
def removeBody : List Code.Line :=
  block "if (!hardDelete && SoftDeleteProperty != null)"
    (lines ["SoftDeleteProperty.SetValue(entity, true);", "DbSet.Update(entity);", "return;"]) ++
  line "DbSet.Remove(entity);"

/-- The members of the generic repository. -/
def genericMembers (name context : String) : List (List Code.Line) := [
  line "private static readonly PropertyInfo? SoftDeleteProperty =" ++
    indent (line "typeof(TEntity).GetProperty(" ++
      indent (lines [
        "\"" ++ softDeleteMember ++ "\",",
        "BindingFlags.Public | BindingFlags.Instance | BindingFlags.IgnoreCase);"])),
  lines [s!"protected readonly {context} Context;", "protected readonly DbSet<TEntity> DbSet;"],
  block s!"public {name}({context} context)"
    (lines ["Context = context;", "DbSet = context.Set<TEntity>();"]),
  block "protected IQueryable<TEntity> Query(bool includeSoftDeleted)"
    (line "return includeSoftDeleted ? DbSet.IgnoreQueryFilters() : DbSet;"),
  waiting getById getByIdBody,
  waiting getAll (line "return await Query(includeSoftDeleted).ToListAsync(cancellationToken);"),
  waiting find (line ("return await Query(includeSoftDeleted).Where(predicate)" ++
    ".ToListAsync(cancellationToken);")),
  waiting add (line "await DbSet.AddAsync(entity, cancellationToken);"),
  waiting addRange (line "await DbSet.AddRangeAsync(entities, cancellationToken);"),
  immediate update (line "DbSet.Update(entity);"),
  immediate remove removeBody,
  immediate removeRange
    (block "foreach (var entity in entities)" (line "Remove(entity, hardDelete);")),
  waiting count
    (line "var query = Query(includeSoftDeleted);" ++
      line "return predicate == null" ++
      indent (lines [
        "? await query.CountAsync(cancellationToken)",
        ": await query.CountAsync(predicate, cancellationToken);"])),
  waiting existsAny
    (line "return await Query(includeSoftDeleted).AnyAsync(predicate, cancellationToken);")]

/-- The file of the generic repository. -/
def genericFile (r : Request) : SourceFile where
  usings := ["System", "System.Collections.Generic", "System.Linq", "System.Linq.Expressions",
    "System.Reflection", "System.Threading", "System.Threading.Tasks",
    "Microsoft.EntityFrameworkCore", r.home .context, r.home .repositoryInterface]
  home := r.home .repository
  body :=
    block (s!"public class {r.genericRepository}<TEntity> : " ++
        s!"{r.genericRepositoryInterface}<TEntity> where TEntity : class")
      (spaced (genericMembers r.genericRepository r.contextName))

/-- The file of a table's repository interface. -/
def interfaceFile (r : Request) (t : Table) : SourceFile where
  usings := [r.home .entity]
  home := r.home .repositoryInterface
  body :=
    block (s!"public interface {r.repositoryInterfaceName t} : " ++
        s!"{r.genericRepositoryInterface}<{t.className}>")
      (line s!"// Add custom queries for {t.className} here.")

/-- The file of a table's repository. -/
def file (r : Request) (t : Table) : SourceFile where
  usings := [r.home .context, r.home .entity, r.home .repositoryInterface]
  home := r.home .repository
  body :=
    block (s!"public class {r.repositoryName t} : {r.genericRepository}<{t.className}>, " ++
        r.repositoryInterfaceName t)
      (line s!"public {r.repositoryName t}({r.contextName} context)" ++
        indent (line ": base(context)") ++
        braced [] "" ++
        blank ++
        line s!"// Implement custom queries for {t.className} here.")

end EntityScaffold.Repository
