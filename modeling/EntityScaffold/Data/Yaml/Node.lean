import EntityScaffold.Data.Yaml.Token

/-!
# Nodes of YAML documents

The structure of a document: scalars, sequences and mappings, each with its tag if one is written.
Nodes are known by their places, and a collection holds the places of its parts. So an alias is the
place of the node that it names, also inside the very collection that it names.

`NodeGraph.ofTokens` reads the one document of a text.
-/

namespace EntityScaffold.Yaml

/-- The place of a node among the nodes of its document. -/
abbrev NodeId := Nat

/-- A part of a document. -/
inductive Node where
  | scalar (tag : Option String) (plain : Bool) (text : String)
  | sequence (tag : Option String) (items : List NodeId)
  | mapping (tag : Option String) (pairs : List (NodeId × NodeId))
  deriving Inhabited

/-- The nodes of a text. -/
structure NodeGraph where
  nodes : Array Node := #[]
  /-- The places of the nodes in the order in which the nodes end, last first. -/
  ended : List NodeId := []

namespace NodeGraph

/-- The scalar that stands where nothing is written. -/
def empty : Node := .scalar none true ""

/-- What the tokens of a document are read with. -/
structure Reader extends NodeGraph where
  tokens : List Token
  /-- What is wrong with the text after these tokens. -/
  fault : Option Error
  /-- What names stand for. -/
  anchors : List (String × NodeId) := []
  /-- What the handles of tags stand for. -/
  handles : List (String × String) := []
  /-- How many collections are open. -/
  depth : Nat := 0

/-- How deep collections may lie inside each other. -/
def nestingLimit : Nat := 485

/-- A step of reading. -/
abbrev Step (α : Type) := StateT Reader (Except Error) α

def fail : Step α := fun _ => malformed

/-- The next token, which stays. The fault of the text counts once all tokens before it are
taken. -/
def peek : Step (Option Token) := do
  let r ← get
  match r.tokens.head?, r.fault with
  | some t, _ => return some t
  | none, none => return none
  | none, some e => throw e

/-- Goes past the next token. -/
def advance : Step Unit := modify fun r => { r with tokens := r.tokens.drop 1 }

/-- Goes past the next token, if it is the given one. -/
def accept (t : Token) : Step Bool := do
  if (← peek) = some t then
    advance
    return true
  else return false

/-- The next token is one of those given. -/
def isNext (ts : List Token) : Step Bool := do
  match ← peek with
  | some t => return ts.contains t
  | none => return false

/-- Gives a place a name. -/
def name (anchor : Option String) (id : NodeId) : Step Unit := do
  match anchor with
  | none => return
  | some a => modify fun r => { r with anchors := (a, id) :: r.anchors }

/-- A name that is free. A name is given once. -/
def checkFree (anchor : Option String) : Step Unit := do
  match anchor with
  | none => return
  | some a => if ((← get).anchors.lookup a).isSome then fail else return

/-- A new place, for a node that begins. -/
def begin (n : Node) : Step NodeId := do
  let id := (← get).nodes.size
  modify fun r => { r with nodes := r.nodes.push n }
  return id

/-- Puts a node that ends at its place. -/
def finish (id : NodeId) (n : Node) : Step NodeId := do
  modify fun r => { r with nodes := r.nodes.setIfInBounds id n, ended := id :: r.ended }
  return id

/-- Reads a collection, which is written at its place before its parts and after them. -/
def collection (anchor : Option String) (node : α → Node) (bare : α) (parts : Step α) :
    Step NodeId := do
  if nestingLimit ≤ (← get).depth then throw .tooDeep
  else
    let id ← begin (node bare)
    name anchor id
    modify fun r => { r with depth := r.depth + 1 }
    let a ← parts
    modify fun r => { r with depth := r.depth - 1 }
    finish id (node a)

/-- A node without parts. -/
def leaf (n : Node) : Step NodeId := do finish (← begin n) n

/-- The full form of a tag. -/
def fullTag (handle : Option String) (name : String) : Step String := do
  match handle with
  | none => return name
  | some h =>
    match (← get).handles.lookup h with
    | some start => return start ++ name
    | none => fail

/-- An anchor and a tag in either order. -/
def properties : Step (Option String × Option String) := do
  let anchor? : Step (Option String) := do
    match ← peek with
    | some (.anchor a) => advance; return some a
    | _ => return none
  let tag? : Step (Option (Option String × String)) := do
    match ← peek with
    | some (.tag h n) => advance; return some (h, n)
    | _ => return none
  let first ← anchor?
  let tag ← tag?
  let anchor ← if first.isNone && tag.isSome then anchor? else pure first
  match tag with
  | none => return (anchor, none)
  | some (h, n) => return (anchor, some (← fullTag h n))

/-- Where a node stands: inside brackets, in a block, or in a block as a member of a mapping, where
a sequence may begin without being indented. -/
inductive Position where
  | flow
  | block
  | member
  deriving DecidableEq

mutual

/-- A node. The first argument bounds the calls. -/
def read : Nat → Position → Step NodeId
  | 0, _ => fail
  | fuel + 1, position => do
    match ← peek with
    | some (.alias a) =>
      advance
      match (← get).anchors.lookup a with
      | some id => return id
      | none => fail
    | _ =>
      let (anchor, tag) ← properties
      let next ← peek
      checkFree anchor
      let scalar (plain : Bool) (text : String) : Step NodeId := do
        let id ← leaf (.scalar tag plain text)
        name anchor id
        return id
      let sequence := collection anchor (.sequence tag) []
      let mapping := collection anchor (.mapping tag) []
      match next, position with
      | some .blockEntry, .member => sequence (readIndentless fuel)
      | some (.scalar text plain), _ =>
        advance
        scalar plain text
      | some .flowSequenceStart, _ =>
        advance
        sequence (readFlowItems fuel true)
      | some .flowMappingStart, _ =>
        advance
        mapping (readFlowPairs fuel true)
      | some .blockSequenceStart, .block | some .blockSequenceStart, .member =>
        advance
        sequence (readItems fuel)
      | some .blockMappingStart, .block | some .blockMappingStart, .member =>
        advance
        mapping (readPairs fuel)
      | _, _ => if anchor.isSome || tag.isSome then scalar true "" else fail

/-- A node, or the empty scalar if one of the given tokens comes next. -/
def readUnless : Nat → Position → List Token → Step NodeId
  | 0, _, _ => fail
  | fuel + 1, position, stops => do
    if ← isNext stops then leaf empty else read fuel position

/-- The items of a sequence in a block of its own. -/
def readItems : Nat → Step (List NodeId)
  | 0 => fail
  | fuel + 1 => do
    if ← accept .blockEntry then
      let n ← readUnless fuel .block [.blockEntry, .blockEnd]
      return n :: (← readItems fuel)
    else if ← accept .blockEnd then return []
    else fail

/-- The items of a sequence that is not indented. -/
def readIndentless : Nat → Step (List NodeId)
  | 0 => fail
  | fuel + 1 => do
    if ← accept .blockEntry then
      let n ← readUnless fuel .block [.blockEntry, .key, .value, .blockEnd]
      return n :: (← readIndentless fuel)
    else return []

/-- The pairs of a mapping in a block. -/
def readPairs : Nat → Step (List (NodeId × NodeId))
  | 0 => fail
  | fuel + 1 => do
    let stops : List Token := [.key, .value, .blockEnd]
    if ← accept .key then
      let k ← readUnless fuel .member stops
      let v ← if ← accept .value then readUnless fuel .member stops else leaf empty
      return (k, v) :: (← readPairs fuel)
    else if ← accept .blockEnd then return []
    else fail

/-- A key after its indicator and the value after it, if there is one. -/
def readFlowPair : Nat → Token → Step (NodeId × NodeId)
  | 0, _ => fail
  | fuel + 1, close => do
    let k ← readUnless fuel .flow [.value, .flowEntry, close]
    let v ← if ← accept .value then readUnless fuel .flow [.flowEntry, close] else leaf empty
    return (k, v)

/-- The items of a sequence between brackets. A key there makes a mapping of one pair. -/
def readFlowItems : Nat → Bool → Step (List NodeId)
  | 0, _ => fail
  | fuel + 1, first => do
    if ← accept .flowSequenceEnd then return []
    else
      let apart ← if first then pure true else accept .flowEntry
      if !apart then fail
      else if ← accept .key then
        let pair : Step (List (NodeId × NodeId)) := do
          return [← readFlowPair fuel .flowSequenceEnd]
        let id ← collection none (.mapping none) [] pair
        return id :: (← readFlowItems fuel false)
      else if ← accept .flowSequenceEnd then return []
      else
        let n ← read fuel .flow
        return n :: (← readFlowItems fuel false)

/-- The pairs of a mapping between brackets. What is no key is one without a value. -/
def readFlowPairs : Nat → Bool → Step (List (NodeId × NodeId))
  | 0, _ => fail
  | fuel + 1, first => do
    if ← accept .flowMappingEnd then return []
    else
      let apart ← if first then pure true else accept .flowEntry
      if !apart then fail
      else if ← accept .key then
        let p ← readFlowPair fuel .flowMappingEnd
        return p :: (← readFlowPairs fuel false)
      else if ← accept .flowMappingEnd then return []
      else
        let k ← read fuel .flow
        let v ← leaf empty
        return (k, v) :: (← readFlowPairs fuel false)

end

/-! ## Documents -/

/-- The pieces of a directive between spaces, without a comment. -/
def pieces (s : List Char) : List String :=
  ((String.ofList s).splitOn " ").filter (· ≠ "") |>.takeWhile (!·.startsWith "#")

/-- A version that can be read. -/
def isVersion (s : String) : Bool :=
  match s.splitOn "." with
  | [major, minor] =>
    let isNumber (s : String) := s ≠ "" && s.all Char.isDigit
    isNumber major && isNumber minor && decimalNumber major.toList = 1
  | _ => false

/-- What the directives before a document say that the handles of tags stand for, and the tokens
after them. A version is given once. -/
def readDirectives (versioned : Bool) (handles : List (String × String)) :
    List Token → Except Error (List (String × String) × List Token)
  | .directive n value :: rest =>
    match n, pieces value with
    | "YAML", [v] =>
      if versioned || !isVersion v then malformed else readDirectives true handles rest
    | "YAML", _ => malformed
    | "TAG", [handle, start] =>
      if (handles.lookup handle).isSome || !handle.startsWith "!" then malformed
      else readDirectives versioned ((handle, start) :: handles) rest
    | "TAG", _ => malformed
    | _, _ => readDirectives versioned handles rest
  | rest => .ok (handles, rest)

/-- The handles that need no directive. -/
def commonHandles : List (String × String) := [("!", "!"), ("!!", "tag:yaml.org,2002:")]

/-- Goes past the directives before a document. -/
def directives : Step Unit := do
  let (handles, rest) ← readDirectives false [] (← get).tokens
  modify fun r => { r with tokens := rest, handles := handles ++ commonHandles }

/-- The node at the top of the one document of a text, if there is a document at all. -/
def readDocument (fuel : Nat) : Step (Option NodeId) := do
  match ← peek with
  | none => return none
  | some (.directive ..) | some .documentStart =>
    directives
    if !(← accept .documentStart) then fail
    else
      match ← peek with
      | none | some (.directive ..) | some .documentStart | some .documentEnd =>
        return some (← leaf empty)
      | _ => return some (← read fuel .block)
  | _ => return some (← read fuel .block)

/-- Goes to the end of the text, where no other document may begin. -/
def readEnd : Step Unit := do
  let _ ← peek
  modify fun r => { r with tokens := r.tokens.dropWhile (· = .documentEnd) }
  if (← peek).isSome then
    directives
    let _ ← peek
    fail
  else return

/-- The nodes of the one document that tokens hold, and the place of the one at the top. -/
def ofTokens (ts : Tokens) : Except Error (NodeGraph × Option NodeId) := do
  let fuel := 4 * ts.settled.length + 4
  let reading : Step (Option NodeId) := do
    let root ← readDocument fuel
    readEnd
    return root
  let (root, r) ← reading.run
    { tokens := ts.settled, fault := ts.fault, handles := commonHandles }
  return (r.toNodeGraph, root)

end NodeGraph

end EntityScaffold.Yaml
