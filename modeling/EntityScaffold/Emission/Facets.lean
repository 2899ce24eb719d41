import EntityScaffold.Emission.Fluent

/-!
# What each style writes

A style decides which constructs express the facets of a column. Generators ask the style and
never tell styles apart themselves.

Model of `get_emission_strategy` and the three strategies it chooses from.
-/

namespace EntityScaffold.Style

/-- The annotations above a column's member. -/
def propertyAnnotations (s : Style) (p : Property) (t : Table) : List Annotation :=
  if s.annotates then p.annotations t else []

/-- The annotations above a reference navigation. -/
def navigationAnnotations (s : Style) (p : Property) : List Annotation :=
  if s.annotates then p.navigationAnnotations else []

/-- The statements in the context for one column. -/
def propertyStatements (s : Style) (t : Table) (p : Property) : List FluentStatement :=
  match s with
  | .annotationsAndFluent => p.storageStatements
  | .annotationsOnly => []
  | .fluentOnly => p.storageStatements ++ p.validationStatements t

/-- The statements in the context for all columns of a table. -/
def fluentStatements (s : Style) (t : Table) : List FluentStatement :=
  t.properties.flatMap (s.propertyStatements t)

/-- The namespaces that an entity uses. -/
def entityUsings (s : Style) : List String :=
  ["System", "System.Collections.Generic"] ++
    if s.annotates then
      ["System.ComponentModel.DataAnnotations", "System.ComponentModel.DataAnnotations.Schema"]
    else []

end EntityScaffold.Style
