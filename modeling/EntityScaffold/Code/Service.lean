import EntityScaffold.Code.Naming
import EntityScaffold.Code.Signature
import EntityScaffold.Data.Optional

/-!
# Services

For each table a service class and, if wanted, its interface. `Service.signatures` is the one
list of methods that both are made from: five that wait for their work and, unless only those are
wanted, five that block until it is done. A blocking method calls its waiting counterpart with
its own parameters.

Model of `_service_signatures`, `_key_parameter_type`, `generate_service_interface` and
`generate_service`.
-/

namespace EntityScaffold

/-- The type of the parameter that identifies a row: the type of a single key, an array for a
composite key, and the top type where there is no key. -/
def Table.keyType (t : Table) : String :=
  match t.primaryKeys with
  | [key] => key.dataType.fieldType false
  | [] => "object"
  | _ => "object[]"

namespace Service

open Code (line lines blank indent braced block spaced SourceFile)

/-- The methods that wait for their work. -/
inductive Operation where
  | getById
  | getAll
  | create
  | update
  | delete
  deriving DecidableEq

/-- Every method, in order. -/
def operations : List Operation := [.getById, .getAll, .create, .update, .delete]

/-- The name of a blocking method. -/
def Operation.name : Operation → String
  | .getById => "GetById"
  | .getAll => "GetAll"
  | .create => "Create"
  | .update => "Update"
  | .delete => "Delete"

/-- The result of a method, if it has one. -/
def Operation.result? (op : Operation) (t : Table) : Option String :=
  match op with
  | .getById => some (t.className ++ "?")
  | .getAll => some s!"IReadOnlyList<{t.className}>"
  | .create => some t.className
  | .update => none
  | .delete => none

/-- The parameters of a blocking method. -/
def Operation.parameters (op : Operation) (t : Table) : List Parameter :=
  let id : Parameter := ⟨t.keyType, "id", none⟩
  let entity : Parameter := ⟨t.className, "entity", none⟩
  match op with
  | .getById => [id, .includeSoftDeleted]
  | .getAll => [.includeSoftDeleted]
  | .create => [entity]
  | .update => [id, entity]
  | .delete => [id, .hardDelete]

/-- The signature of the method that waits. -/
def Operation.waiting (op : Operation) (t : Table) : Signature where
  result := match op.result? t with
    | some type => s!"Task<{type}>"
    | none => "Task"
  name := op.name ++ "Async"
  parameters := op.parameters t ++ [.cancellation]

/-- The signature of the method that blocks. -/
def Operation.blocking (op : Operation) (t : Table) : Signature where
  result := (op.result? t).getD "void"
  name := op.name
  parameters := op.parameters t

/-- The signatures of a table's service. -/
def signatures (r : Request) (t : Table) : List Signature :=
  operations.map (·.waiting t) ++ if r.asyncOnly then [] else operations.map (·.blocking t)

/-- The file of a service interface. -/
def interfaceFile (r : Request) (t : Table) : SourceFile where
  usings := ["System.Collections.Generic", "System.Threading", "System.Threading.Tasks",
    r.home .entity]
  home := r.home .serviceInterface
  body := block s!"public interface {r.serviceInterfaceName t}"
    ((signatures r t).flatMap Signature.declaration)

/-- Looks a row up and throws when there is none. -/
def findExisting (t : Table) : List Code.Line :=
  let key := if t.keyType == "object[]" then "string.Join(\", \", id)" else "id"
  line ("var existing = await _repository.GetByIdAsync(" ++
    "id, cancellationToken: cancellationToken);") ++
  block "if (existing == null)"
    (line (s!"throw new KeyNotFoundException($\"{t.className} with key " ++
      "'\x7b" ++ key ++ "\x7d' was not found.\");")) ++
  blank

/-- Writes what was changed. -/
def saveChanges : String := "await _context.SaveChangesAsync(cancellationToken);"

/-- The body of a method that waits. -/
def Operation.waitingBody (op : Operation) (t : Table) : List Code.Line :=
  match op with
  | .getById =>
    line "return await _repository.GetByIdAsync(id, includeSoftDeleted, cancellationToken);"
  | .getAll =>
    line "return await _repository.GetAllAsync(includeSoftDeleted, cancellationToken);"
  | .create =>
    lines ["await _repository.AddAsync(entity, cancellationToken);", saveChanges,
      "return entity;"]
  | .update =>
    findExisting t ++
      lines ["_context.Entry(existing).CurrentValues.SetValues(entity);", saveChanges]
  | .delete =>
    findExisting t ++ lines ["_repository.Remove(existing, hardDelete);", saveChanges]

/-- The call of the waiting method that a blocking method makes. -/
def Operation.blockingCall (op : Operation) (t : Table) : String :=
  (op.waiting t).name ++ "(" ++ ", ".intercalate ((op.parameters t).map (·.name)) ++
    ").GetAwaiter().GetResult()"

/-- The body of a method that blocks. -/
def Operation.blockingBody (op : Operation) (t : Table) : List Code.Line :=
  let call := op.blockingCall t ++ ";"
  line (if (op.blocking t).isVoid then call else "return " ++ call)

/-- The methods of a service class. -/
def methods (r : Request) (t : Table) : List Method :=
  operations.map (fun op => ⟨"public async", op.waiting t, op.waitingBody t⟩) ++
    if r.asyncOnly then []
    else operations.map fun op => ⟨"public", op.blocking t, op.blockingBody t⟩

/-- The fields and the constructor of a service class. -/
def setUp (r : Request) (t : Table) : List (List Code.Line) :=
  let repository := r.repositoryInterfaceName t
  [lines [s!"private readonly {repository} _repository;",
      s!"private readonly {r.contextName} _context;"],
    block s!"public {r.serviceName t}({repository} repository, {r.contextName} context)"
      (lines ["_repository = repository;", "_context = context;"])]

/-- The file of a service class. -/
def file (r : Request) (t : Table) : SourceFile where
  usings := ["System.Collections.Generic", "System.Threading", "System.Threading.Tasks",
      r.home .context, r.home .entity, r.home .repositoryInterface] ++
    onlyIf r.emitsServiceInterfaces (r.home .serviceInterface)
  home := r.home .service
  body :=
    block (s!"public class {r.serviceName t}" ++
        if r.emitsServiceInterfaces then " : " ++ r.serviceInterfaceName t else "")
      (spaced (setUp r t ++ (methods r t).map Method.code))

end Service

end EntityScaffold
