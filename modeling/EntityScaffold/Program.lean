/-!
# The program's name and version
-/

namespace EntityScaffold

/-- The version of this program. -/
def version : String := "0.1.0"

/-- The name of this program. -/
def programName : String := "dbscaffold"

end EntityScaffold
