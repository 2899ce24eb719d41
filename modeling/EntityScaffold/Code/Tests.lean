import EntityScaffold.Code.Naming
import EntityScaffold.Code.Service
import EntityScaffold.Text.Literal

/-!
# Test scaffolds

A test of each repository, which adds an entity and reads it back, and of each service, which
creates an entity through a substitute of the repository.

Model of `_sample_assignments`, `generate_repository_tests` and `generate_service_tests`.
-/

namespace EntityScaffold

/-- The single key of a table, when the database makes its values. -/
def Table.generatedKey? (t : Table) : Option Property :=
  match t.primaryKeys with
  | [key] => if key.dataType == .integer32 || key.dataType == .integer64 then some key else none
  | _ => none

/-- The value that a test gives to a column. A sample text is cut to the greatest length. -/
def Property.sampleValue (p : Property) : String :=
  match p.dataType, p.maxLength with
  | .text, some n => Text.regularLiteral (String.ofList ("sample".toList.take n.toNat))
  | type, _ => type.sample

/-- The columns that an insertion must fill in. -/
def Table.requiredColumns (t : Table) : List Property :=
  t.properties.filter fun p =>
    some p.name != t.generatedKey?.map (·.name) && (!p.isNullable || p.isPrimaryKey)

namespace Tests

open Code (line lines blank indent braced block spaced SourceFile)

/-- The file of a repository's test. -/
def repositoryFile (r : Request) (t : Table) : SourceFile where
  usings := ["System", "System.Threading.Tasks", "Microsoft.EntityFrameworkCore", "Xunit",
    r.home .context, r.home .entity, r.home .repository]
  home := r.home .repositoryTests
  body :=
    block s!"public class {r.repositoryName t}Tests" <| spaced [
      block s!"private static {r.contextName} CreateContext()"
        (line s!"var options = new DbContextOptionsBuilder<{r.contextName}>()" ++
          indent (lines [".UseInMemoryDatabase(Guid.NewGuid().ToString())", ".Options;"]) ++
          line s!"return new {r.contextName}(options);"),
      line "[Fact]" ++
        block "public async Task AddAsync_ThenGetAllAsync_ReturnsEntity()"
          (lines ["using var context = CreateContext();",
              s!"var repository = new {r.repositoryName t}(context);",
              s!"var entity = new {t.className}"] ++
            braced (lines (t.requiredColumns.map fun p =>
              p.memberName ++ " = " ++ p.sampleValue ++ ",")) ";" ++
            blank ++
            lines ["await repository.AddAsync(entity);", "await context.SaveChangesAsync();"] ++
            blank ++
            lines ["var all = await repository.GetAllAsync();", "Assert.Single(all);",
              "Assert.Equal(1, await repository.CountAsync());"])]

/-- The variable that holds an entity of the class. -/
def variableName (className : String) : String :=
  let name := Text.camelCase className
  if name.isEmpty then "entity" else name

/-- The file of a service's test. -/
def serviceFile (r : Request) (t : Table) : SourceFile where
  usings := ["System.Threading", "System.Threading.Tasks", "Microsoft.EntityFrameworkCore", "Moq",
    "Xunit", r.home .context, r.home .entity, r.home .repositoryInterface, r.home .service]
  home := r.home .serviceTests
  body :=
    let created := variableName t.className
    block s!"public class {r.serviceName t}Tests" <|
      line "[Fact]" ++
      block "public async Task CreateAsync_AddsEntityAndSavesOnce()"
        (line s!"var repository = new Mock<{r.repositoryInterfaceName t}>();" ++
          line (s!"var context = new Mock<{r.contextName}>(" ++
            s!"new DbContextOptions<{r.contextName}>());") ++
          line "context" ++
          indent (lines [".Setup(c => c.SaveChangesAsync(It.IsAny<CancellationToken>()))",
            ".ReturnsAsync(1);"]) ++
          lines [s!"var service = new {r.serviceName t}(repository.Object, context.Object);",
            s!"var {created} = new {t.className}();"] ++
          blank ++
          line s!"var result = await service.CreateAsync({created});" ++
          blank ++
          lines [s!"Assert.Same({created}, result);", "repository.Verify("] ++
          indent (line
            s!"r => r.AddAsync({created}, It.IsAny<CancellationToken>()), Times.Once);") ++
          line "context.Verify(" ++
          indent (line "c => c.SaveChangesAsync(It.IsAny<CancellationToken>()), Times.Once);"))

end Tests

end EntityScaffold
