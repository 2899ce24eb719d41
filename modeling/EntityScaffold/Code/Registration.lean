import EntityScaffold.Code.Naming
import EntityScaffold.Code.Layout
import EntityScaffold.Data.Optional

/-!
# Registrations

The extension method that registers every generated repository and service with a container.

Model of `generate_di_extensions`.
-/

namespace EntityScaffold

/-- One registration. -/
inductive Registration where
  /-- A class is served where its interface is asked for. -/
  | pair (interface implementation : String)
  /-- A class is served under its own name. -/
  | single (implementation : String)
  deriving DecidableEq

namespace Registration

open Code (line lines blank indent braced block SourceFile)

/-- A registration as code. -/
def code : Registration → String
  | .pair interface implementation =>
    s!"services.AddScoped<{interface}, {implementation}>();"
  | .single implementation => s!"services.AddScoped<{implementation}>();"

/-- The registration of a table's repository. -/
def ofRepository (r : Request) (t : Table) : Registration :=
  .pair (r.repositoryInterfaceName t) (r.repositoryName t)

/-- The registration of a table's service. -/
def ofService (r : Request) (t : Table) : Registration :=
  if r.emitsServiceInterfaces then .pair (r.serviceInterfaceName t) (r.serviceName t)
  else .single (r.serviceName t)

/-- The registrations for tables: repositories first, then services if there are any. -/
def ofTables (r : Request) (tables : List Table) : List Registration :=
  tables.map (ofRepository r) ++ if r.services then tables.map (ofService r) else []

/-- The file of the extension method. -/
def file (r : Request) (tables : List Table) : SourceFile where
  usings := ["System", "Microsoft.EntityFrameworkCore", "Microsoft.Extensions.DependencyInjection",
      r.home .context, r.home .repositoryInterface, r.home .repository] ++
    onlyIf r.emitsServiceInterfaces (r.home .serviceInterface) ++
    onlyIf r.services (r.home .service)
  home := r.home .extensions
  body :=
    block "public static class ServiceCollectionExtensions" <|
      line "public static IServiceCollection AddGeneratedServices(" ++
      indent (lines ["this IServiceCollection services,",
        "Action<DbContextOptionsBuilder> configureDbContext)"]) ++
      braced
        (lines [s!"services.AddDbContext<{r.contextName}>(configureDbContext);",
            s!"services.AddScoped(typeof({r.genericRepositoryInterface}<>), " ++
              s!"typeof({r.genericRepository}<>));"] ++
          lines ((ofTables r tables).map code) ++
          blank ++
          line "return services;")
        ""

end Registration

end EntityScaffold
