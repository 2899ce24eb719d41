import EntityScaffold.Text.Blank
import EntityScaffold.Text.Case

/-!
# Referential actions

What happens to dependent rows when the row they refer to is removed.

Model of `DeleteBehavior` and its `parse`.
-/

namespace EntityScaffold

/-- A referential action. -/
inductive DeleteBehavior where
  | cascade
  | clientSetNull
  | restrict
  | setNull
  | noAction
  | clientCascade
  | clientNoAction
  deriving DecidableEq

namespace DeleteBehavior

/-- Every action. -/
def all : List DeleteBehavior :=
  [.cascade, .clientSetNull, .restrict, .setNull, .noAction, .clientCascade, .clientNoAction]

/-- The name of an action in generated code. -/
def name : DeleteBehavior → String
  | .cascade => "Cascade"
  | .clientSetNull => "ClientSetNull"
  | .restrict => "Restrict"
  | .setNull => "SetNull"
  | .noAction => "NoAction"
  | .clientCascade => "ClientCascade"
  | .clientNoAction => "ClientNoAction"

/-- The action a word means, whatever its case and the blanks around it. -/
def ofWord? (word : String) : Option DeleteBehavior :=
  let wanted := Text.lowerCase (Text.strip word)
  if wanted.isEmpty then none else all.find? fun b => Text.lowerCase b.name == wanted

end DeleteBehavior

end EntityScaffold
