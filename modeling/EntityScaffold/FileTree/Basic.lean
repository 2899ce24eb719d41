import EntityScaffold.FileTree.Path

/-!
# File trees

A tree of directories and files without links, as a list of places and what is there. Anchors
are directories always.

* `FileTree.walk`: the place that a path leads to, going from directory to directory.
* `FileTree.makeDirectories`: a directory with all that are missing above it.
* `FileTree.buildAtomically`, `FileTree.writeAtomically`: a file written beside its place and moved
  there, so that a failure leaves no file changed and none behind.

An operation that fails may still have added directories, so every operation gives the tree
afterwards beside its outcome.

Model of `ensure_directory` and `write_file` over the calls of the file system that they and the
packages use.
-/

namespace EntityScaffold

/-- Why an operation on files fails. -/
inductive FileError where
  | notFound
  | exists
  | notDirectory
  | isDirectory
  | nameTooLong
  | busy
  | nullByte
  | notText
  /-- The name of an entry is too long for an archive. -/
  | longEntry
  deriving DecidableEq

/-- The wording of a failure. -/
def FileError.message : FileError → String
  | .notFound => "[Errno 2] No such file or directory"
  | .exists => "[Errno 17] File exists"
  | .notDirectory => "[Errno 20] Not a directory"
  | .isDirectory => "[Errno 21] Is a directory"
  | .nameTooLong => "[Errno 36] File name too long"
  | .busy => "[Errno 16] Device or resource busy"
  | .nullByte => "embedded null byte"
  | .notText => "invalid UTF-8"
  | .longEntry => "'H' format requires 0 <= number <= 65535"

/-- The failure was reported by the file system itself. -/
def FileError.isSystem : FileError → Bool
  | .nullByte => false
  | .notText => false
  | .longEntry => false
  | _ => true

/-- What stands at a place. -/
inductive Node (α : Type) where
  | directory
  | file (content : α)
  deriving DecidableEq

/-- Places and what stands there. -/
structure FileTree (α : Type) where
  entries : List (Path × Node α) := []

namespace FileTree

variable {α : Type}

/-- What stands at a place. -/
def node? (t : FileTree α) (p : Path) : Option (Node α) :=
  if p.length ≤ 1 then some .directory else t.entries.lookup p

/-- A directory stands at a place. -/
def isDirectory (t : FileTree α) (p : Path) : Bool :=
  match t.node? p with
  | some .directory => true
  | _ => false

/-- The content of the file at a place. -/
def content? (t : FileTree α) (p : Path) : Option α :=
  match t.node? p with
  | some (.file c) => some c
  | _ => none

/-- The tree without what stands at one place. -/
def erase (t : FileTree α) (p : Path) : FileTree α := ⟨t.entries.filter fun e => e.1 ≠ p⟩

/-- The tree with something else at one place. -/
def put (t : FileTree α) (p : Path) (n : Node α) : FileTree α := ⟨(t.erase p).entries ++ [(p, n)]⟩

/-- The tree without a place and everything below it. -/
def prune (t : FileTree α) (p : Path) : FileTree α :=
  ⟨t.entries.filter fun e => !p.isPrefixOf e.1⟩

/-- The greatest number of bytes in a name. -/
def nameLimit : Nat := 255

/-- A name that no directory can hold. -/
def isTooLong (name : String) : Bool := nameLimit < name.utf8ByteSize

/-- The greatest number of bytes in a path. -/
def pathLimit : Nat := 4095

/-- A path that no operation takes. -/
def isTooLongPath (p : Path) : Bool := pathLimit < (Path.display p).utf8ByteSize

/-- A name holds the character that ends names. -/
def hasNull (p : Path) : Bool := p.any fun n => n.toList.contains '\x00'

/-- The place that names lead to from a place. Only what is walked through has to be there. -/
def walkFrom (t : FileTree α) (place : Path) : List String → Except FileError Path
  | [] => .ok place
  | n :: rest =>
    match t.node? place with
    | none => .error .notFound
    | some (.file _) => .error .notDirectory
    | some .directory =>
      if n = ".." then walkFrom t (Path.parent place) rest
      else if isTooLong n then .error .nameTooLong
      else walkFrom t (place ++ [n]) rest

/-- The place that a path leads to. -/
def walk (t : FileTree α) (p : Path) : Except FileError Path :=
  if hasNull p then .error .nullByte
  else if isTooLongPath p then .error .nameTooLong
  else t.walkFrom (p.take 1) (p.drop 1)

/-- The place of something that must be there, and what it is. -/
def find (t : FileTree α) (p : Path) : Except FileError (Path × Node α) := do
  let place ← t.walk p
  match t.node? place with
  | some n => return (place, n)
  | none => .error .notFound

/-- Something stands where a path leads. Failures other than that there is nothing are reported,
apart from a name that cannot be. -/
def present? (t : FileTree α) (p : Path) : Except FileError (Option (Node α)) :=
  match t.find p with
  | .ok (_, n) => .ok (some n)
  | .error .notFound => .ok none
  | .error .notDirectory => .ok none
  | .error .nullByte => .ok none
  | .error e => .error e

/-- Makes one directory in one that is there. -/
def makeDirectory (t : FileTree α) (p : Path) : Except FileError (FileTree α) := do
  let place ← t.walk p
  match t.node? place with
  | some _ => .error .exists
  | none => return t.put place .directory

/-- A failure to make a directory does not count when there is one already. -/
def unlessDirectory (t : FileTree α) (p : Path) (e : FileError) : Except FileError Unit :=
  if e = .nullByte then .error e
  else
    match t.present? p with
    | .ok (some .directory) => .ok ()
    | .ok _ => .error e
    | .error e' => .error e'

/-- Makes a directory and all that are missing above it. What is there already is kept. -/
def makeDirectories (t : FileTree α) (p : Path) : FileTree α × Except FileError Unit :=
  match t.makeDirectory p with
  | .ok t' => (t', .ok ())
  | .error .notFound =>
    if _h : p.length ≤ 1 then (t, .error .notFound)
    else
      match makeDirectories t p.dropLast with
      | (t', .error e) => (t', .error e)
      | (t', .ok ()) =>
        match t'.makeDirectory p with
        | .ok t'' => (t'', .ok ())
        | .error .notFound => (t', .error .notFound)
        | .error e => (t', t'.unlessDirectory p e)
  | .error e => (t, t.unlessDirectory p e)
termination_by p.length
decreasing_by simp; omega

/-- The random part of the `k`-th candidate for a temporary name. -/
def randomPart (k : Nat) : String :=
  let digits := Nat.toDigits 10 k
  String.ofList (List.replicate (8 - digits.length) '0' ++ digits)

/-- The name of the file in which a file is built before it is moved to its place. -/
def temporaryName (name random : String) : String := s!".{name}.{random}.tmp"

/-- The first candidate for a temporary name in a directory that is free. -/
def freeTemporary (t : FileTree α) (directory : Path) (name : String) : String :=
  let candidates := (List.range (t.entries.length + 1)).map fun k =>
    temporaryName name (randomPart k)
  (candidates.find? fun n => (t.node? (directory ++ [n])).isNone).getD (temporaryName name "")

/-- Moves a file to a place, over a file that may be there. -/
def moveFile (t : FileTree α) (source : Path) (p : Path) : Except FileError (FileTree α) := do
  let place ← t.walk p
  if p.getLast? = some ".." then .error .busy
  else
    match t.node? place, t.content? source with
    | some .directory, _ => .error .isDirectory
    | _, none => .error .notFound
    | _, some c => return (t.erase source).put place (.file c)

/-- Writes a file: it is built under a temporary name in the same directory and then moved to its
place. Directories that are missing are made first. A file that cannot be built leaves no
temporary file. -/
def buildAtomically (t : FileTree α) (p : Path) (content : Except FileError α) :
    FileTree α × Except FileError Unit :=
  match t.makeDirectories (Path.parent p) with
  | (t₁, .error e) => (t₁, .error e)
  | (t₁, .ok ()) =>
    let name := Path.name p
    let temporary := t₁.freeTemporary (Path.parent p).collapsed name
    if hasNull [name] then (t₁, .error .nullByte)
    else
      match t₁.walk (Path.parent p ++ [temporary]), content with
      | .error e, _ => (t₁, .error e)
      | .ok _, .error e => (t₁, .error e)
      | .ok built, .ok c =>
        let t₂ := t₁.put built (.file c)
        match t₂.moveFile built p with
        | .ok t₃ => (t₃, .ok ())
        | .error e => (t₂.erase built, .error e)

/-- Writes a file of a content that is at hand. -/
def writeAtomically (t : FileTree α) (p : Path) (content : α) :
    FileTree α × Except FileError Unit :=
  t.buildAtomically p (.ok content)

/-- Writes a file at its place, over what it held. Directories that are missing are made first. -/
def writeDirectly (t : FileTree α) (p : Path) (content : α) :
    FileTree α × Except FileError Unit :=
  match t.makeDirectories (Path.parent p) with
  | (t₁, .error e) => (t₁, .error e)
  | (t₁, .ok ()) =>
    match t₁.walk p with
    | .error e => (t₁, .error e)
    | .ok place =>
      match t₁.node? place with
      | some .directory => (t₁, .error .isDirectory)
      | _ => (t₁.put place (.file content), .ok ())

/-- The content of the file where a path leads. -/
def read (t : FileTree α) (p : Path) : Except FileError α := do
  match ← t.find p with
  | (_, .file c) => return c
  | (_, .directory) => .error .isDirectory

/-- Removes a directory and everything in it. Where there is nothing, nothing is done. -/
def removeDirectory (t : FileTree α) (p : Path) : FileTree α × Except FileError Unit :=
  match t.present? p with
  | .error e => (t, .error e)
  | .ok none => (t, .ok ())
  | .ok (some (.file _)) => (t, .error .notDirectory)
  | .ok (some .directory) =>
    match t.walk p with
    | .ok place => (t.prune place, .ok ())
    | .error e => (t, .error e)

/-- Removes the file where a path leads. Where there is nothing, nothing is done. -/
def removeFile (t : FileTree α) (p : Path) : FileTree α × Except FileError Unit :=
  match t.find p with
  | .ok (place, .file _) => (t.erase place, .ok ())
  | .ok (_, .directory) => (t, .error .isDirectory)
  | .error .notFound => (t, .ok ())
  | .error e => (t, .error e)

/-- What stands below a place, by the names that lead there. -/
def below (t : FileTree α) (p : Path) : List (List String × Node α) :=
  t.entries.filterMap fun e =>
    if p.isPrefixOf e.1 && p.length < e.1.length then some (e.1.drop p.length, e.2) else none

/-- The files below a place with their relative paths, in the order of those. -/
def filesBelow (t : FileTree α) (p : Path) : List (String × α) :=
  let files := (t.below p).filterMap fun e =>
    match e.2 with
    | .file c => some ("/".intercalate e.1, c)
    | .directory => none
  files.mergeSort fun a b => a.1 ≤ b.1

/-- Everything below a place, in order; directories end in a slash. -/
def listing (t : FileTree α) (p : Path) : List String :=
  let names := (t.below p).map fun e =>
    match e.2 with
    | .file _ => "/".intercalate e.1
    | .directory => "/".intercalate e.1 ++ "/"
  names.mergeSort fun a b => a ≤ b

end FileTree

end EntityScaffold
