import EntityScaffold.Jobs.Download
import EntityScaffold.Program
import EntityScaffold.Web.Address
import EntityScaffold.Web.Body

/-!
# The web service

Jobs are submitted, watched and fetched over the web:

    POST /api/jobs               submits a request
    GET  /api/jobs/‹job›         the state of a job
    GET  /api/downloads/‹name›   a package
    GET  /health                 the service is up

`Web.answer` is what the service does with one message.

Model of `create_app` with `submit_job`, `get_job`, `download_package` and `health`.
-/

namespace EntityScaffold

namespace Web

/-- An answer of the service. -/
inductive Answer where
  | json (status : Nat) (body : Value)
  /-- A file to save, with the header that says so. -/
  | file (path : Path) (disposition : String)

/-- What an address asks for. -/
inductive Resource where
  | jobs
  | job (id : String)
  | download (name : String)
  | health
  deriving DecidableEq

/-- The one method that a resource answers to. -/
def Resource.method : Resource → String
  | .jobs => "POST"
  | _ => "GET"

/-- The one segment after the start of a path, if there is exactly one. -/
def segmentAfter? (start : String) (path : List Char) : Option String :=
  if start.toList.isPrefixOf path then
    let rest := path.drop start.length
    if rest.isEmpty || rest.contains '/' then none else some (String.ofList rest)
  else none

/-- The resource at a path. One line feed at the end of a fixed path is tolerated. -/
def resource? (path : List Char) : Option Resource :=
  let whole := String.ofList (Text.dropFinalNewline path)
  if whole = "/api/jobs" then some .jobs
  else if whole = "/health" then some .health
  else
    match segmentAfter? "/api/jobs/" path, segmentAfter? "/api/downloads/" path with
    | some id, _ => some (.job id)
    | none, some name => some (.download name)
    | none, none => none

/-- Where the service points to instead of a path: to the address without the slashes at its end, if
only those keep a resource from being found. -/
def redirection? (path : List Char) : Option (List Char) :=
  let bare := (path.reverse.dropWhile (· = '/')).reverse
  if path.getLast? = some '/' && (resource? bare).isSome then some (pathOf (String.ofList bare))
  else none

/-- The resource at a path after `n` redirections at most. -/
def resourceWithin? (n : Nat) (path : List Char) : Option Resource :=
  match resource? path, n with
  | some r, _ => some r
  | none, 0 => none
  | none, n + 1 => (redirection? path).bind (resourceWithin? n)

/-- The resource at a path. Every redirection takes a slash away, so the length of the path bounds
their number. -/
def resourceNear? (path : List Char) : Option Resource := resourceWithin? path.length path

/-- A fault as a member of an answer. -/
def faultValue (f : Fault) : Value :=
  .ofMembers [("loc", .text f.location), ("msg", .text f.problem.message),
    ("type", .text f.problem.kind)]

/-- An answer that gives a detail. -/
def refuse (status : Nat) (detail : Value) : Answer :=
  .json status (.ofMembers [("detail", detail)])

/-! ## Answers -/

/-- Takes a request. -/
def submit (p : Pipeline) (job : String) (m : Message) : Pipeline × Answer :=
  match requestOf m with
  | .error (.faults fs) => (p, refuse 422 (.list (fs.map faultValue)))
  | .error .unreadable => (p, refuse 400 (.text "There was an error parsing the body"))
  | .ok r =>
    let result := Pipeline.submission job r
    (p.run [.submit job r],
      .json (if result.success then 202 else 400) (SubmitResult.shape.dumpSpelled result))

/-- The state of a job. -/
def jobState (p : Pipeline) (job : String) : Answer :=
  let s := p.registry.status job
  .json (if s.status = .notFound then 404 else 200) (StatusResult.shape.dumpSpelled s)

/-- A package. -/
def download (p : Pipeline) (name : String) : Answer :=
  match p.packagePath name with
  | .ok path => .file path s!"attachment; filename=\"{name}\""
  | .error e =>
    let status := match e with
      | .invalidName _ => 400
      | .notFound _ => 404
    refuse status (.text e.message)

/-- What the service does with a message. A job that is submitted gets the given name. -/
def answer (p : Pipeline) (job : String) (m : Message) : Pipeline × Answer :=
  match resourceNear? (pathOf m.address) with
  | none => (p, refuse 404 (.text "Not Found"))
  | some r =>
    if m.method ≠ r.method then (p, refuse 405 (.text "Method Not Allowed"))
    else
      match r with
      | .jobs => submit p job m
      | .job id => (p, jobState p id)
      | .download name => (p, download p name)
      | .health => (p, .json 200 (.ofMembers [("status", .text "ok"), ("version", .text version)]))

end Web

end EntityScaffold
