/-!
# Configuration styles

Where the metadata of a column is written: as annotations on the entity, as fluent calls in the
context, or both.

Model of `ConfigurationStyle`.
-/

namespace EntityScaffold

/-- A configuration style. -/
inductive Style where
  | annotationsAndFluent
  | annotationsOnly
  | fluentOnly
  deriving DecidableEq

namespace Style

/-- Every style, in the order in which messages list them. -/
def all : List Style := [.annotationsAndFluent, .annotationsOnly, .fluentOnly]

/-- The word for a style in requests. -/
def token : Style → String
  | .annotationsAndFluent => "AnnotationsAndFluentApi"
  | .annotationsOnly => "AnnotationsOnly"
  | .fluentOnly => "FluentApiOnly"

/-- The style with a given word. -/
def ofToken? (s : String) : Option Style := all.find? fun t => t.token == s

/-- The style writes annotations. -/
def annotates : Style → Bool
  | .fluentOnly => false
  | _ => true

/-- The name of the strategy that carries out a style. -/
def strategyName : Style → String
  | .annotationsAndFluent => "AnnotationsAndFluentStrategy"
  | .annotationsOnly => "AnnotationsOnlyStrategy"
  | .fluentOnly => "FluentApiOnlyStrategy"

/-- A style as messages show it. -/
def display (s : Style) : String := s!"<{s.strategyName} style={s.token}>"

end Style

end EntityScaffold
