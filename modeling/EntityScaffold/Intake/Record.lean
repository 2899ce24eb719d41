import EntityScaffold.Intake.Reading

/-!
# Records described by their fields

A record type of a request is described once, by a table of its fields, and the table serves
every use: reading a record from an object, writing it back, and assigning single fields later.

* `RecordShape.read`: fields are found under the camel-case spelling of their name or under the
  name itself. Faults come field by field, then for keys that belong to no field.
* `RecordShape.dump`: the object of all fields.
* `RecordShape.assign`: one field of an existing record.
-/

namespace EntityScaffold

/-- One field of a record type. -/
structure Field (σ : Type) where
  name : String
  required : Bool
  read : Origin → Value → Reading (σ → σ)
  dump : σ → Value

/-- A field with a codec. -/
def Field.of (name : String) (codec : Codec α) (get : σ → α) (set : α → σ → σ) : Field σ where
  name := name
  required := false
  read o v := (codec.read o v).map set
  dump s := codec.dump (get s)

/-- The field, which must not be left out. -/
def Field.mandatory (f : Field σ) : Field σ := { f with required := true }

/-- Removes underscores and turns the letter after each into a capital. -/
def camelLetters : List Char → List Char
  | '_' :: c :: rest => c.toUpper :: camelLetters rest
  | c :: rest => c :: camelLetters rest
  | [] => []

/-- The camel-case spelling of a field name. -/
def camelSpelling (name : String) : String := String.ofList (camelLetters name.toList)

/-- What is done with keys that belong to no field. -/
inductive UnknownKeys where
  | refused
  | ignored
  deriving DecidableEq

/-- A record type as requests write it. -/
structure RecordShape (σ : Type) where
  title : String
  fields : List (Field σ)
  /-- The record before any field is read. -/
  initial : σ
  /-- Names of derived values, which cannot be assigned. -/
  derived : List String := []
  /-- Fields may be written in camel case. -/
  camel : Bool := true
  unknownKeys : UnknownKeys := .refused
  /-- Nothing can be assigned once a record is built. -/
  frozen : Bool := false
  /-- A rule for the whole record, checked when all fields are in order. -/
  rule : σ → Option Rejection := fun _ => none

namespace RecordShape

/-- The preferred spelling of a field. -/
def spelling (shape : RecordShape σ) (f : Field σ) : String :=
  if shape.camel then camelSpelling f.name else f.name

/-- The key and the value under which an object holds a field: the preferred spelling goes before
the name. -/
def find? (shape : RecordShape σ) (members : List (Scalar × Value)) (f : Field σ) :
    Option (String × Value) :=
  match members.lookup (.text (shape.spelling f)) with
  | some v => some (shape.spelling f, v)
  | none => (members.lookup (.text f.name)).map fun v => (f.name, v)

/-- Reads one field of an object. -/
def readField (shape : RecordShape σ) (o : Origin) (members : List (Scalar × Value))
    (f : Field σ) : Reading (σ → σ) :=
  match shape.find? members f with
  | some (key, v) => (f.read o v).under key
  | none => if f.required then (Reading.fail .missing).under (shape.spelling f) else .ok id

/-- The keys under which an object holds fields. -/
def usedKeys (shape : RecordShape σ) (members : List (Scalar × Value)) : List String :=
  shape.fields.filterMap fun f => (shape.find? members f).map (·.1)

/-- The faults of keys that belong to no field, in the order of the object. -/
def strayKeys (shape : RecordShape σ) (members : List (Scalar × Value)) : List Fault :=
  match shape.unknownKeys with
  | .ignored => []
  | .refused =>
    let used := shape.usedKeys members
    members.filterMap fun
      | (.text k, _) => if used.contains k then none else some ⟨[k], .unknownKey⟩
      | (k, _) => some ⟨[k.keyText], .keyNotText⟩

/-- Reads the fields in the order of the table. -/
def readFields (shape : RecordShape σ) (o : Origin) (members : List (Scalar × Value)) :
    List (Field σ) → Reading (σ → σ)
  | [] => .ok id
  | f :: fs =>
    Reading.map₂ (fun g h => h ∘ g) (shape.readField o members f) (readFields shape o members fs)

/-- Reads a record. -/
def read (shape : RecordShape σ) (o : Origin) : Value → Reading σ
  | .object members => do
    let stray : Reading Unit :=
      match shape.strayKeys members with
      | [] => .ok ()
      | fs => .error fs
    let fill ← Reading.map₂ (fun g _ => g) (shape.readFields o members shape.fields) stray
    let record := fill shape.initial
    match shape.rule record with
    | none => return record
    | some cause => .fail (.rejected cause)
  | _ => .fail (o.noObject shape.title)

/-- All fields under their names. -/
def dump (shape : RecordShape σ) (record : σ) : Value :=
  .ofMembers (shape.fields.map fun f => (f.name, f.dump record))

/-- All fields under their preferred spellings. -/
def dumpSpelled (shape : RecordShape σ) (record : σ) : Value :=
  .ofMembers (shape.fields.map fun f => (shape.spelling f, f.dump record))

/-- A codec for the record type. -/
def codec (shape : RecordShape σ) : Codec σ := ⟨shape.read, shape.dump⟩

/-- What a name stands for in an assignment. -/
inductive Target (σ : Type) where
  | field (f : Field σ)
  /-- A name outside the record's public ones, which may hold anything. -/
  | hidden
  /-- Nothing of the record can be assigned. -/
  | frozen
  /-- A derived value. -/
  | derived
  | unknown

/-- Derived values that every record has. -/
def commonDerived : List String := ["model_extra", "model_fields_set"]

/-- What a name stands for. -/
def target (shape : RecordShape σ) (name : String) : Target σ :=
  if name.startsWith "_" then .hidden
  else if shape.frozen then .frozen
  else if shape.derived.contains name || commonDerived.contains name then .derived
  else
    match shape.fields.find? (·.name == name) with
    | some f => .field f
    | none => .unknown

/-- Why an assignment failed. -/
inductive AssignError where
  | faults (fs : List Fault)
  /-- Derived values cannot be assigned. -/
  | derived
  /-- The record has no such field, and does not check what it is assigned. -/
  | noField (title name : String)

/-- Assigns a value to an attribute: the record afterwards, and the error if there is one. The
value is read like a field of a document. When the new record breaks the rule for whole records
the value stays assigned. -/
def assign (shape : RecordShape σ) (record : σ) (name : String) (v : Value) :
    σ × Option AssignError :=
  match shape.target name with
  | .hidden => (record, none)
  | .frozen => (record, some (.faults [⟨[name], .frozen⟩]))
  | .derived => (record, some .derived)
  | .unknown => (record, some (.faults [⟨[name], .noSuchAttribute name⟩]))
  | .field f =>
    match (f.read .document v).under name with
    | .error fs => (record, some (.faults fs))
    | .ok set =>
      let record := set record
      match shape.rule record with
      | none => (record, none)
      | some cause => (record, some (.faults [⟨[], .rejected cause⟩]))

end RecordShape

/-! ## Records that are not checked after they are built -/

/-- A record that takes any value for its fields once it is built: its fields with their names and
preferred spellings. -/
structure LooseRecord where
  title : String
  fields : List (String × String × Value)

namespace LooseRecord

/-- The record, as one whose fields take any value. -/
def ofRecord (shape : RecordShape σ) (record : σ) : LooseRecord :=
  ⟨shape.title, shape.fields.map fun f => (f.name, shape.spelling f, f.dump record)⟩

/-- All fields under their names. -/
def dump (r : LooseRecord) : Value := .ofMembers (r.fields.map fun f => (f.1, f.2.2))

/-- All fields under their preferred spellings. -/
def dumpSpelled (r : LooseRecord) : Value := .ofMembers (r.fields.map fun f => (f.2.1, f.2.2))

/-- Assigns a value to a field. -/
def assign (r : LooseRecord) (name : String) (v : Value) :
    LooseRecord × Option RecordShape.AssignError :=
  if name.startsWith "_" then (r, none)
  else if RecordShape.commonDerived.contains name then (r, some .derived)
  else if r.fields.any (·.1 == name) then
    ({ r with fields := r.fields.map fun f => if f.1 == name then (f.1, f.2.1, v) else f }, none)
  else (r, some (.noField r.title name))

end LooseRecord

end EntityScaffold
