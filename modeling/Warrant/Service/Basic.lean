import Warrant.Config.Basic
import Warrant.Execution.Basic
import Warrant.Interrupt
import Warrant.Plan.Envelope
import Warrant.Resolution.Basic

/-!
# Services

A service binds a schema to a store. It takes texts, statements, plans and envelopes, refuses plans
that were resolved under another schema, and knows the statements that its callers need most.

## Main definitions

- `Service` — a schema and a limit
- `Service.run`, `Service.runText`, `Service.runStatement`, `Service.runEncoded` — ways to run
- `Service.findUser`, `Service.checkAccess`, `Service.grantAccess`, `Service.revokeAccess` —
  statements about users and resources
- `ServiceError` — why a service has no answer
-/

namespace Warrant

/-- Why a service has no answer. -/
inductive ServiceError
  | compile (e : CompileError)
  | run (e : RunError)
  | config (e : ConfigError)
  | envelope (e : EnvelopeError)

namespace ServiceError

def write : ServiceError → String
  | .compile e => e.write
  | .run e => e.write
  | .config e => e.write
  | .envelope e => e.write

/-- Whether the same request may succeed when it is made again. -/
def isRetryable : ServiceError → Bool
  | .run e => e.isRetryable
  | _ => false

end ServiceError

/-- A script that answers a request to a service. -/
abbrev Request := ExceptT ServiceError Script

/-- A request that was answered without a store. -/
def Request.ofExcept {α ε : Type} (wrap : ε → ServiceError) (result : Except ε α) : Request α :=
  ExceptT.mk (.done (result.mapError wrap))

/-- A schema, and how long a statement may run unless something else is said. -/
structure Service where
  schema : Schema
  timeout : Option Nat

/-- What a user is known by. -/
inductive UserKey
  | id
  | username
  | email
deriving DecidableEq, Repr

/-- The field that holds what a user is known by. -/
def UserKey.field : UserKey → String
  | .id => "id"
  | .username => "username"
  | .email => "email"

namespace Service

/-- The version that plans must carry. -/
def version (s : Service) : UInt32 :=
  s.schema.fingerprint

/-- The interrupt of a statement that watches a token: the limit of the service holds. -/
def interrupt (s : Service) (token : Nat) : Interrupt :=
  ⟨token, s.timeout.map .after⟩

/-- A service for a schema, which must keep the rules. -/
def ofSchema (schema : Schema) (timeout : Option Nat) : Except ServiceError Service :=
  match schema.validate with
  | .ok () => .ok ⟨schema, timeout⟩
  | .error fault => .error (.config (.schema (.invalid fault)))

/-- The service that a configuration means. -/
def ofConfig (c : Config) (files : Files) : Except ServiceError Service := do
  let schema ← (c.loadSchema files).mapError .config
  ofSchema schema c.timeout

/-- The plan of a text. -/
def plan (s : Service) (caller : Principal) (text : String) : Except CompileError Plan :=
  compile s.schema caller text

/-- The plan of a statement. -/
def planStatement (s : Service) (caller : Principal) (statement : Statement) :
    Except CompileError Plan :=
  (statement.resolve s.schema caller).mapError .unresolved

/-- **Runs a plan.** The plan must have been resolved under the schema of the service. -/
def run (s : Service) (now : Instant) (caller : Principal) (plan : Plan) : Evaluation Outcome :=
  if plan.schemaVersion = s.version then plan.execute now caller
  else throw (.staleSchema plan.schemaVersion s.version)

/-- A plan that carries the version of the service is executed. -/
theorem run_of_version {s : Service} {now : Instant} {caller : Principal} {plan : Plan}
    (hversion : plan.schemaVersion = s.version) :
    s.run now caller plan = plan.execute now caller :=
  if_pos hversion

/-- Runs a plan that may not have come about. -/
def runPlanned {ε : Type} (s : Service) (now : Instant) (caller : Principal)
    (wrap : ε → ServiceError) (planned : Except ε Plan) : Request Outcome := do
  let plan ← Request.ofExcept wrap planned
  (s.run now caller plan).adapt .run

/-- Runs the plan in an envelope. -/
def runEncoded (s : Service) (now : Instant) (caller : Principal) (bytes : List UInt8) :
    Request Outcome :=
  s.runPlanned now caller .envelope (Plan.decode bytes)

/-- Runs a text. -/
def runText (s : Service) (now : Instant) (caller : Principal) (text : String) :
    Request Outcome :=
  s.runPlanned now caller .compile (s.plan caller text)

/-- Runs a statement. -/
def runStatement (s : Service) (now : Instant) (caller : Principal) (statement : Statement) :
    Request Outcome :=
  s.runPlanned now caller .compile (s.planStatement caller statement)

def entityName (s : Service) (kind : EntityKind) : Except ConfigError String :=
  match s.schema.firstOfKind? kind with
  | some e => .ok e.name
  | none => .error (.missingEntity kind)

/-- The user with an id. -/
def user (s : Service) (id : String) : Except ConfigError Reference := do
  return .withField (← s.entityName .principal) Row.idField id

/-- The resource with an id. -/
def resource (s : Service) (id : String) : Except ConfigError Reference := do
  return .withField (← s.entityName .resource) Row.idField id

/-- The first user that is known by a text. -/
def findUser (s : Service) (now : Instant) (caller : Principal) (key : UserKey) (text : String) :
    Request (Option Record) := do
  let entity ← Request.ofExcept .config (s.entityName .principal)
  match ← s.runStatement now caller (.get (.withField entity key.field text) .all none) with
  | .records found => return found.head?
  | _ => return none

/-- Whether a user holds a permission on a resource. -/
def checkAccess (s : Service) (now : Instant) (caller : Principal)
    (userId resourceId permission : String) : Request Bool := do
  let who ← Request.ofExcept .config (s.user userId)
  let what ← Request.ofExcept .config (s.resource resourceId)
  match ← s.runStatement now caller (.check (.reference who) permission what) with
  | .verdict v => return v.allowed
  | _ => return false

/-- Grants a user a permission on a resource. -/
def grantAccess (s : Service) (now : Instant) (caller : Principal)
    (userId resourceId permission : String) : Request Outcome := do
  let what ← Request.ofExcept .config (s.resource resourceId)
  let who ← Request.ofExcept .config (s.user userId)
  s.runStatement now caller (.grant permission what (.reference who))

/-- Revokes a permission of a user on a resource. -/
def revokeAccess (s : Service) (now : Instant) (caller : Principal)
    (userId resourceId permission : String) : Request Outcome := do
  let what ← Request.ofExcept .config (s.resource resourceId)
  let who ← Request.ofExcept .config (s.user userId)
  s.runStatement now caller (.revoke permission what (.reference who))

end Service

end Warrant
