import EntityScaffold.Data.Yaml.Merge

/-!
# Parts of documents

What the nodes of a document mean, one by one: a scalar its value, a sequence its items, a mapping
its members under the values of its keys. Of members with equal keys the last counts, at the place
of the first.

Nodes are taken up level by level from the top, since the first node without a meaning decides what
is said of the document.
-/

namespace EntityScaffold.Yaml

/-- The meaning of a node. Collections hold places. -/
inductive Part where
  | scalar (s : Scalar)
  | list (items : List NodeId)
  | object (members : List (Scalar × NodeId))

/-- What keys are compared by. -/
inductive KeyIdentity where
  | number (n : Int)
  | instant (micros : Int)
  | scalar (s : Scalar)
  deriving DecidableEq

/-- Two keys are one when they are equal as numbers, when they are stamps of the same moment, or
when they are the same scalar. -/
def KeyIdentity.of (s : Scalar) : KeyIdentity :=
  match s with
  | .bool b => .number (if b then 1 else 0)
  | .int n => .number n
  | .float x => (x.toInt?.map .number).getD (.scalar s)
  | .stamp t => (t.instant?.map .instant).getD (.scalar s)
  | _ => .scalar s

/-- Members in order of their first occurrence, each with its last value. -/
def membersOf (pairs : List (Scalar × α)) : List (Scalar × α) :=
  (collectMembers (pairs.map fun p => (KeyIdentity.of p.1, p))).map fun m =>
    (((pairs.find? fun p => KeyIdentity.of p.1 = m.1).getD m.2).1, m.2.2)

/-- A collection of a kind may have this tag. -/
def allowsTag (kind : String) : Option String → Bool
  | none => true
  | some t => t = "!" || t = "tag:yaml.org,2002:" ++ kind

/-- What the nodes of a document mean, as far as they have been taken up. -/
structure Survey where
  nodes : Array Node
  /-- By place. A collection has a part without contents from when it is first met. -/
  parts : Array (Option Part)
  /-- The collections whose contents are still to be taken up, last first. -/
  waiting : List NodeId := []

namespace Survey

/-- A step of taking up nodes. -/
abbrev Step (α : Type) := StateT Survey (Except Error) α

def setPart (id : NodeId) (p : Part) : Step Unit :=
  modify fun s => { s with parts := s.parts.setIfInBounds id (some p) }

/-- Meets the node at a place. -/
def meet (id : NodeId) : Step Unit := do
  let s ← get
  if (s.parts[id]?.join).isSome then return
  else
    let collection (known : Bool) (p : Part) : Step Unit := do
      if known then
        setPart id p
        modify fun s => { s with waiting := id :: s.waiting }
      else throw .malformed
    match s.nodes[id]? with
    | some (.scalar tag plain text) =>
      match kindOfScalar tag plain text with
      | some kind => setPart id (.scalar (← kind.scalar text))
      | none => throw .malformed
    | some (.sequence tag _) => collection (allowsTag "seq" tag) (.list [])
    | some (.mapping tag _) => collection (allowsTag "map" tag) (.object [])
    | none => throw .malformed

/-- Meets the node at a place as a key, which must be a scalar. -/
def meetKey (id : NodeId) : Step Scalar := do
  match (← get).nodes[id]? with
  | some (.scalar tag plain text) =>
    match kindOfScalar tag plain text with
    | some .default => return .text text
    | some kind => kind.scalar text
    | none => throw .malformed
  | _ => throw .malformed

/-- Takes up the contents of the collection at a place. At most `merges` pairs are followed on the
way. -/
def takeUp (merges : Nat) (id : NodeId) : Step Unit := do
  let s ← get
  match s.nodes[id]? with
  | some (.sequence _ items) =>
    items.forM meet
    setPart id (.list items)
  | some (.mapping ..) =>
    let ((), nodes) ← (takeIn (merges + 1) id []).run s.nodes
    set { s with nodes }
    let members ← (pairsAt nodes id).mapM fun (k, v) => do
      let key ← meetKey k
      meet v
      return (key, v)
    setPart id (.object (membersOf members))
  | _ => return

/-- Takes up all levels. Every collection waits once, so the number of nodes bounds the calls. -/
def takeUpAll (merges : Nat) : Nat → Step Unit
  | 0 => return
  | fuel + 1 => do
    let level := (← get).waiting.reverse
    if level.isEmpty then return
    else
      modify fun s => { s with waiting := [] }
      level.forM (takeUp merges)
      takeUpAll merges fuel

end Survey

/-- The meanings of the nodes that a node reaches, by place. -/
def NodeGraph.parts (g : NodeGraph) (root : NodeId) : Except Error (Array (Option Part)) := do
  let survey : Survey.Step Unit := do
    Survey.meet root
    Survey.takeUpAll (pairCount g.nodes) (g.nodes.size + 1)
  let ((), s) ← survey.run { nodes := g.nodes, parts := Array.replicate g.nodes.size none }
  return s.parts

end EntityScaffold.Yaml
