import Warrant.Execution.Basic
import Warrant.Store.Trace

/-!
# What plans do to graphs

A plan is run as a script of calls, between which its caller may give up. This module says in one
go what comes of a plan when nobody gives up: an outcome and a graph, or a failure. No call, no
poll and no working copy occurs here.

## Main definitions

- `Graph.verdict`, `Graph.resolve`, `Graph.authorize`, `Graph.delegate` — questions to a graph
- `Graph.grant`, `Graph.revoke`, `Graph.update`, `Graph.delete` — the four changes of a graph
- `Memory.transact` — a change of the published graph
- `Plan.effect` — what a plan makes of a store
-/

namespace Warrant

/-- The text that a field of a row holds, if it holds one. -/
def Row.text? (row : Row) (field : String) : Option String :=
  (row.get? field).bind Value.asString?

namespace Graph

/-- **The verdict on a permission** in a graph: an edge grants it, or the owner field of the
    resource names the subject, or it is not held. -/
def verdict (g : Graph) (subject : Node) (permission : String) (resource : Node) (row : Row)
    (ownerField : String) : Verdict :=
  if (g.findEdge ⟨subject, resource, permission⟩).isSome then .allow .directGrant
  else if row.text? ownerField = some subject.id then .allow .ownership
  else .deny

def rowsOf (g : Graph) (target : Target) : Except RunError (List Row) :=
  (g.find target.entity target.filter).mapError .store

/-- The one row that a target must have. -/
def resolve (g : Graph) (target : Target) : Except RunError (Node × Row) := do
  match ← g.rowsOf target with
  | [] => throw (.notFound target)
  | [row] => return (⟨target.entity, row.id⟩, row)
  | rows => throw (.ambiguous target rows.length)

/-- Fails unless the principal may administer the resource. -/
def authorize (g : Graph) (principal : Node) (action : Verb) (resource : Node) (row : Row)
    (ownerField : String) : Except RunError Unit :=
  if (g.verdict principal Schema.adminPermission resource row ownerField).allowed then .ok ()
  else .error (.forbidden principal action resource)

/-- Fails unless the principal may administer every one of some rows. -/
def guardRows (g : Graph) (principal : Node) (action : Verb) (entity ownerField : String) :
    List Row → Except RunError Unit
  | [] => .ok ()
  | row :: rest => do
    g.authorize principal action ⟨entity, row.id⟩ row ownerField
    g.guardRows principal action entity ownerField rest

/-- The key of an access that the principal may administer. -/
def delegate (g : Graph) (principal : Node) (action : Verb) (access : Access) :
    Except RunError EdgeKey := do
  let (subject, _) ← g.resolve access.subject
  let (resource, row) ← g.resolve access.resource
  g.authorize principal action resource row access.ownerField
  return ⟨subject, resource, access.permission⟩

def get (g : Graph) (target : Target) (projection : List String) : Except RunError Outcome := do
  let rows ← g.rowsOf target
  return .records (rows.map (Evaluation.project target.entity projection))

def check (g : Graph) (access : Access) : Except RunError Outcome := do
  let (subject, _) ← g.resolve access.subject
  let (resource, row) ← g.resolve access.resource
  return .verdict (g.verdict subject access.permission resource row access.ownerField)

/-- The edge that a principal gives. -/
def newEdge (now : Instant) (principal : Node) (key : EdgeKey) : Edge :=
  ⟨key, ⟨now, some principal⟩⟩

def grant (now : Instant) (principal : Node) (access : Access) (g : Graph) :
    Except RunError (Outcome × Graph) := do
  let key ← g.delegate principal .grant access
  let edge := newEdge now principal key
  return (.granted edge (g.upsertEdge edge).1, (g.upsertEdge edge).2)

def revoke (principal : Node) (access : Access) (g : Graph) :
    Except RunError (Outcome × Graph) := do
  let key ← g.delegate principal .revoke access
  return (.revoked key (g.deleteEdge key).1, (g.deleteEdge key).2)

/-- Writes the same fields of some rows. -/
def updateRows (entity : String) (values : List (String × Value)) :
    List Row → Graph → Except RunError Graph
  | [], g => .ok g
  | row :: rest, g => do
    let g ← (g.updateFields entity row.id values).mapError .store
    updateRows entity values rest g

def update (principal : Node) (target : Target) (assignments : List Assignment)
    (ownerField : Option String) (g : Graph) : Except RunError (Outcome × Graph) := do
  let rows ← g.rowsOf target
  match ownerField with
  | some owner => g.guardRows principal .update target.entity owner rows
  | none => pure ()
  let g ← updateRows target.entity (assignments.map fun a => (a.field, a.value)) rows g
  return (.updated target.entity rows.length, g)

def delete (principal : Node) (target : Target) (kind : EntityKind) (ownerField : Option String)
    (g : Graph) : Except RunError (Outcome × Graph) := do
  match ownerField with
  | some owner => do
    let rows ← g.rowsOf target
    g.guardRows principal .delete target.entity owner rows
  | none => pure ()
  let (report, g) ←
    (g.deleteRows target.entity target.filter (Evaluation.cascade kind)).mapError .store
  return (.deleted target.entity report, g)

end Graph

/-- A change of the published graph. A writer that meets an open transaction gives up in the end. -/
def Memory.transact {α : Type} (m : Memory) (change : Graph → Except RunError (α × Graph)) :
    Except RunError (α × Graph) :=
  if m.busy then .error (.store .deadlineExceeded) else change m.published

/-- The first assignment whose value does not fit the type that the plan gives. -/
def Assignment.checkTypes (entity : String) : List Assignment → Except RunError Unit
  | [] => .ok ()
  | a :: rest =>
    if a.value.conformsTo a.fieldType then checkTypes entity rest
    else .error (.typeMismatch entity a.field a.fieldType a.value)

/-- What an operation makes of a store on behalf of a principal. -/
def Operation.effect (now : Instant) (principal : Node) (m : Memory) :
    Operation → Except RunError (Outcome × Graph)
  | .get target projection => (m.published.get target projection).map (·, m.published)
  | .check access => (m.published.check access).map (·, m.published)
  | .grant access => m.transact (Graph.grant now principal access)
  | .revoke access => m.transact (Graph.revoke principal access)
  | .update target assignments ownerField => do
    Assignment.checkTypes target.entity assignments
    m.transact (Graph.update principal target assignments ownerField)
  | .delete target kind ownerField => m.transact (Graph.delete principal target kind ownerField)

/-- **What a plan makes of a store** on behalf of a caller when nobody gives up: its outcome and the
    graph that is published then, or its failure. -/
def Plan.effect (now : Instant) (plan : Plan) (caller : Principal) (m : Memory) :
    Except RunError (Outcome × Graph) :=
  if plan.principal ≠ caller then .error (.principalMismatch plan.principal caller)
  else plan.operation.effect now caller.node m

end Warrant
