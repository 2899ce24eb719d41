import EntityScaffold.Data.Yaml.Node
import EntityScaffold.Data.Yaml.Resolve

/-!
# Mappings that take in others

Under the key `<<` a mapping takes in the pairs of another mapping, or of each in a sequence. They
go before its own pairs, those of the last in a sequence first, so that of two values for one key
the mapping's own counts, and otherwise that of the first it takes in.

A mapping may take in one that is around it, and so itself. A pair with the key `<<` is therefore
gone before what it names is looked at: every such pair is followed once.
-/

namespace EntityScaffold.Yaml

/-- The kind of a scalar: what its tag says or, without one, what its spelling says. -/
def kindOfScalar (tag : Option String) (plain : Bool) (s : String) : Option Kind :=
  match tag with
  | none => some (if plain then .ofText s else .text)
  | some "!" => some (.ofText s)
  | some t => Kind.ofTag? t

/-- The key under which a mapping takes in others. -/
def Node.isMergeKey : Node → Bool
  | .scalar tag plain s => kindOfScalar tag plain s = some .merge
  | _ => false

/-- The pairs of the mapping at a place. -/
def pairsAt (nodes : Array Node) (id : NodeId) : List (NodeId × NodeId) :=
  match nodes[id]? with
  | some (.mapping _ pairs) => pairs
  | _ => []

/-- The mapping at a place with other pairs. -/
def setPairsAt (nodes : Array Node) (id : NodeId) (pairs : List (NodeId × NodeId)) : Array Node :=
  match nodes[id]? with
  | some (.mapping tag _) => nodes.setIfInBounds id (.mapping tag pairs)
  | _ => nodes

/-- The first value under a key `<<` among pairs, and the other pairs. -/
def firstMerge? (nodes : Array Node) (pairs : List (NodeId × NodeId)) :
    Option (NodeId × List (NodeId × NodeId)) :=
  let isMerge (p : NodeId × NodeId) : Bool := nodes[p.1]?.any Node.isMergeKey
  match pairs.dropWhile (!isMerge ·) with
  | [] => none
  | p :: after => some (p.2, pairs.takeWhile (!isMerge ·) ++ after)

/-- The mappings that the value of a key `<<` names. -/
def mergeSources (nodes : Array Node) (id : NodeId) : Except Error (List NodeId) :=
  let isMapping (id : NodeId) : Bool :=
    match nodes[id]? with
    | some (.mapping ..) => true
    | _ => false
  match nodes[id]? with
  | some (.mapping ..) => .ok [id]
  | some (.sequence _ items) => if items.all isMapping then .ok items else malformed
  | _ => malformed

/-- Makes the mapping at a place take in what it names, and before it the mappings that it names.
What it has taken in already is `taken`. The first argument bounds the calls; every call but the
last follows a pair that is then gone. -/
def takeIn : Nat → NodeId → List (NodeId × NodeId) → StateT (Array Node) (Except Error) Unit
  | 0, _, _ => fun _ => malformed
  | fuel + 1, id, taken => do
    let nodes ← get
    let pairs := pairsAt nodes id
    match firstMerge? nodes pairs with
    | none => set (setPairsAt nodes id (taken ++ pairs))
    | some (source, others) =>
      let sources ← mergeSources nodes source
      set (setPairsAt nodes id others)
      let parts ← sources.mapM fun s => do
        takeIn fuel s []
        return pairsAt (← get) s
      takeIn fuel id (taken ++ parts.reverse.flatten)

/-- The number of pairs in all mappings. -/
def pairCount (nodes : Array Node) : Nat :=
  totalOf (fun id => (pairsAt nodes id).length) (List.range nodes.size)

end EntityScaffold.Yaml
