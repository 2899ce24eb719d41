import EntityScaffold.Data.Json.Reader
import EntityScaffold.FileTree.Path
import EntityScaffold.Intake.Request
import EntityScaffold.Text.Wide

/-!
# Bodies of messages

A body that is declared as JSON is read as a value, and any other is a text. `requestOf` reads the
request in a body. Requests are read as everywhere, but are not looked for under a key of the body.

Model of how a body reaches `submit_job`.
-/

namespace EntityScaffold.Web

/-- A message to the service. -/
structure Message where
  method : String
  address : String
  /-- The declared type of the body. -/
  contentType : String := "application/json"
  body : String := ""

/-- A declared type says that the body is JSON. -/
def isJsonType (contentType : String) : Bool :=
  let type := (contentType.toList.takeWhile (· ≠ ';')).map Char.toLower
  match Path.slashPieces (Text.trimBy Text.isBlankChar type) with
  | [main, sub] =>
    main = "application".toList && (sub = "json".toList || "+json".toList.isSuffixOf sub)
  | _ => false

/-- Why there is no request in a body. -/
inductive BodyError where
  | faults (fs : List Fault)
  /-- The body cannot be read as a text, or holds what is too large or too deep to be read. -/
  | unreadable
  deriving DecidableEq

/-- The result of a reading at a place of the body. -/
def atBody (place : List String) (r : Reading α) : Except BodyError α :=
  match place.foldr Reading.under r with
  | .ok a => .ok a
  | .error fs => .error (.faults fs)

/-- The text that is sent in a body. A mark of the byte order is no part of it. -/
def sentText (body : String) : Except BodyError (List Char) :=
  let text := body.toList
  if text.head? = some '\uFEFF' then .ok (text.drop 1)
  else if (text.take 4).contains '\x00' then
    let bytes := body.toUTF8.toList
    match Text.Layout.ofBytes bytes with
    | .narrow => .ok text
    | .wide double bigEndian =>
      match Text.ofWideBytes? double bigEndian bytes with
      | some text => .ok text
      | none => .error .unreadable
  else .ok text

/-- The value of a body: nothing, if it is empty, and a text, if it is not declared as JSON. -/
def bodyValue (m : Message) : Except BodyError Value :=
  if m.body.isEmpty then atBody ["body"] (.fail .missing)
  else if isJsonType m.contentType then do
    match Json.read (← sentText m.body) with
    | .ok v => return v
    | .error ⟨.oversizedInteger _, _⟩ => .error .unreadable
    | .error ⟨.tooDeep, _⟩ => .error .unreadable
    | .error e => atBody ["body", intText e.position] (.fail .invalidJson)
  else .ok (.text m.body)

/-- The request in a body. -/
def requestOf (m : Message) : Except BodyError Request := do
  let v ← bodyValue m
  atBody ["body"] (Request.shape.read .body v)

end EntityScaffold.Web
