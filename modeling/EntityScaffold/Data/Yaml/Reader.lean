import EntityScaffold.Data.Yaml.Part

/-!
# Reading YAML

A text is cut into tokens, the tokens give the nodes of its document, each node a part, and the
parts a value.

A collection may hold itself, by an alias inside it. Its value is then without end, and what is
read is the beginning of it: every round of `unfoldOnce` puts what is known of the value in all
places where an alias stands for it, and `rounds` of them go deeper than a reading of a request
does. A document without such an alias is complete after the first.
-/

namespace EntityScaffold.Yaml

/-- The value of a part, given the values of the nodes. -/
def Part.toValue (values : Array Value) : Part → Value
  | .scalar s => .scalar s
  | .list items => .list (items.map (values.getD · .null))
  | .object members => .object (members.map fun m => (m.1, values.getD m.2 .null))

/-- A part as a value without contents. -/
def Part.bare : Part → Value
  | .scalar s => .scalar s
  | .list _ => .list []
  | .object _ => .object []

/-- The values of all nodes, in the order in which the nodes end: the contents of a collection go
before it, but for a collection around them. -/
def unfoldOnce (parts : Array (Option Part)) (ended : List NodeId) (values : Array Value) :
    Array Value :=
  ended.foldl (fun values id =>
    match parts[id]?.join with
    | some p => values.setIfInBounds id (p.toValue values)
    | none => values) values

/-- How many collections deep a reading may look into a document. -/
def rounds : Nat := 8

/-- Reads a whole text. A text without a document stands for nothing. -/
def read (s : List Char) : Except Error Value := do
  match ← NodeGraph.ofTokens (.ofText s) with
  | (_, none) => return .null
  | (g, some root) =>
    let parts ← g.parts root
    let bare := parts.map fun p => (p.map Part.bare).getD .null
    let values := (List.range rounds).foldl (fun values _ =>
      unfoldOnce parts g.ended.reverse values) bare
    return values.getD root .null

end EntityScaffold.Yaml
