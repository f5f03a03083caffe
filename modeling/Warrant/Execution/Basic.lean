import Warrant.Execution.Outcome
import Warrant.Store.Script

/-!
# Running plans

A plan is run as a script. Reading plans work on a snapshot; every other plan works inside one
transaction, which is committed if all went well and rolled back otherwise. Before each call the
evaluation asks whether to go on.

A permission is decided by two rules in turn: an edge grants it, or the subject owns the resource.
Whoever grants, revokes, updates or deletes on resources must hold the permission to administer
each of them.

## Main definitions

- `Evaluation` — a script that may fail
- `Evaluation.decide` — the verdict on a permission
- `Evaluation.inTransaction` — an evaluation that takes effect as a whole or not at all
- `Plan.execute` — a plan as an evaluation
-/

namespace Warrant

/-- A script that may fail. -/
abbrev Evaluation := ExceptT RunError Script

namespace Evaluation

variable {α : Type}

/-- A call whose failure is the failure of the evaluation. -/
def ask (call : Call) : Evaluation call.Result :=
  ExceptT.mk (.ask call fun answer => .done (answer.mapError .store))

/-- Asks whether to go on. -/
def poll : Evaluation Unit :=
  ask .poll

/-- The rows of a target. -/
def find (target : Target) : Evaluation (List Row) :=
  ask (.find target.entity target.filter)

/-! ## Decisions -/

/-- **The verdict on a permission**: an edge grants it, or the owner field of the resource names
    the subject, or it is not held. -/
def decide (subject : Node) (permission : String) (resource : Node) (row : Row)
    (ownerField : String) : Evaluation Verdict := do
  let edge ← (ask (.findEdge ⟨subject, resource, permission⟩) : Evaluation (Option Edge))
  if edge.isSome then return .allow .directGrant
  else if (row.get? ownerField).bind Value.asString? = some subject.id then
    return .allow .ownership
  else return .deny

/-- The one row that a target must have. -/
def resolve (target : Target) : Evaluation (Node × Row) := do
  poll
  match ← find target with
  | [] => throw (.notFound target)
  | [row] => return (⟨target.entity, row.id⟩, row)
  | rows => throw (.ambiguous target rows.length)

/-- Fails unless the principal may administer the resource. -/
def authorize (principal : Node) (action : Verb) (resource : Node) (row : Row)
    (ownerField : String) : Evaluation Unit := do
  poll
  let verdict ← decide principal Schema.adminPermission resource row ownerField
  if verdict.allowed then return () else throw (.forbidden principal action resource)

/-- Fails unless the principal may administer every one of some rows. -/
def guardRows (principal : Node) (action : Verb) (entity ownerField : String) :
    List Row → Evaluation Unit
  | [] => return ()
  | row :: rest => do
    authorize principal action ⟨entity, row.id⟩ row ownerField
    guardRows principal action entity ownerField rest

/-- The key of an access that the principal may administer. -/
def delegate (principal : Node) (action : Verb) (access : Access) : Evaluation EdgeKey := do
  let (subject, _) ← resolve access.subject
  let (resource, row) ← resolve access.resource
  authorize principal action resource row access.ownerField
  return ⟨subject, resource, access.permission⟩

/-! ## Transactions -/

/-- Closes a transaction: a success is committed, and after a failure the changes are rolled back.
    The failure counts then, whether the rollback succeeds or not. -/
def settle : Except RunError α → Evaluation α
  | .ok a => do
    ask .commit
    return a
  | .error e => ExceptT.mk (.ask .rollback fun _ => .done (.error e))

/-- **An evaluation inside a transaction**: it takes effect as a whole or not at all. -/
def inTransaction (body : Evaluation α) : Evaluation α := do
  ask .begin
  ExceptT.mk (Script.bind body.run fun result => (settle result).run)

/-- Writes the same fields of some rows. -/
def updateRows (entity : String) (values : List (String × Value)) : List Row → Evaluation Unit
  | [] => return ()
  | row :: rest => do
    poll
    ask (.updateFields entity row.id values)
    updateRows entity values rest

/-- Fails if some assignment does not fit the type that the plan gives. -/
def checkTypes (entity : String) : List Assignment → Evaluation Unit
  | [] => return ()
  | a :: rest =>
    if a.value.conformsTo a.fieldType then checkTypes entity rest
    else throw (.typeMismatch entity a.field a.fieldType a.value)

/-! ## Operations -/

/-- The record of a row. A missing field reads as null. -/
def project (entity : String) (projection : List String) (row : Row) : Record :=
  ⟨entity, row.id, projection.map fun name => (name, row.value name)⟩

/-- GET. -/
def get (target : Target) (projection : List String) : Evaluation Outcome := do
  ask .snapshot
  poll
  let rows ← find target
  return .records (rows.map (project target.entity projection))

/-- CHECK. -/
def check (access : Access) : Evaluation Outcome := do
  ask .snapshot
  let (subject, _) ← resolve access.subject
  let (resource, row) ← resolve access.resource
  poll
  return .verdict (← decide subject access.permission resource row access.ownerField)

/-- GRANT. -/
def grant (now : Instant) (principal : Node) (access : Access) : Evaluation Outcome :=
  inTransaction do
    let key ← delegate principal .grant access
    let edge : Edge := ⟨key, ⟨now, some principal⟩⟩
    poll
    let created ← (ask (.upsertEdge edge) : Evaluation Bool)
    return .granted edge created

/-- REVOKE. -/
def revoke (principal : Node) (access : Access) : Evaluation Outcome :=
  inTransaction do
    let key ← delegate principal .revoke access
    poll
    let removed ← (ask (.deleteEdge key) : Evaluation Bool)
    return .revoked key removed

/-- UPDATE. With an owner field every row is guarded before any is written. -/
def update (principal : Node) (target : Target) (assignments : List Assignment)
    (ownerField : Option String) : Evaluation Outcome := do
  checkTypes target.entity assignments
  inTransaction do
    poll
    let rows ← find target
    match ownerField with
    | some ownerField => guardRows principal .update target.entity ownerField rows
    | none => pure ()
    updateRows target.entity (assignments.map fun a => (a.field, a.value)) rows
    return .updated target.entity rows.length

/-- What else goes when rows of a kind are deleted. -/
def cascade : EntityKind → List CascadeRule
  | .resource => [.removeEdgesAsObject]
  | .principal => [.removeEdgesAsSubject, .clearGrantor]

/-- DELETE. With an owner field every row is guarded before any is deleted. -/
def delete (principal : Node) (target : Target) (kind : EntityKind)
    (ownerField : Option String) : Evaluation Outcome :=
  inTransaction do
    poll
    match ownerField with
    | some ownerField => do
      let rows ← find target
      guardRows principal .delete target.entity ownerField rows
    | none => pure ()
    let report ← (ask (.deleteRows target.entity target.filter (cascade kind)) :
      Evaluation DeleteReport)
    return .deleted target.entity report

/-- An operation on behalf of a principal. -/
def operation (now : Instant) (principal : Node) : Operation → Evaluation Outcome
  | .get target projection => get target projection
  | .check access => check access
  | .grant access => grant now principal access
  | .revoke access => revoke principal access
  | .update target assignments ownerField => update principal target assignments ownerField
  | .delete target kind ownerField => delete principal target kind ownerField

end Evaluation

/-- **A plan as an evaluation** on behalf of a caller, who must be the principal of the plan. -/
def Plan.execute (now : Instant) (plan : Plan) (caller : Principal) : Evaluation Outcome := do
  if plan.principal ≠ caller then throw (.principalMismatch plan.principal caller)
  Evaluation.poll
  Evaluation.operation now caller.node plan.operation

end Warrant
