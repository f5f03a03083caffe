import Warrant.Graph.Basic

/-!
# Outcomes

What running a plan produces, and why it may fail.

## Main definitions

- `Verdict` — whether a permission is held, and why
- `Record` — a row that GET returns
- `Outcome`, `RunError` — success and failure of a plan
-/

namespace Warrant

/-- Which rule decided a verdict. -/
inductive Reason
  /-- The permission was granted. -/
  | directGrant
  /-- The subject owns the resource. -/
  | ownership
  | noGrant
deriving DecidableEq, Repr

def Reason.name : Reason → String
  | .directGrant => "direct_grant"
  | .ownership => "ownership"
  | .noGrant => "no_grant"

/-- Whether a permission is held, and by which rule. -/
structure Verdict where
  allowed : Bool
  reason : Reason
deriving DecidableEq, Repr

namespace Verdict

/-- The permission is held by some rule. -/
def allow (reason : Reason) : Verdict := ⟨true, reason⟩

/-- The permission is not held. -/
def deny : Verdict := ⟨false, .noGrant⟩

def write : Verdict → String
  | ⟨true, .directGrant⟩ => "allow (direct grant)"
  | ⟨true, .ownership⟩ => "allow (owner)"
  | ⟨true, .noGrant⟩ => "allow"
  | ⟨false, _⟩ => "deny"

def toJson (v : Verdict) : Json :=
  .ofMembers [("allowed", .bool v.allowed), ("reason", .string v.reason.name)]

end Verdict

/-- A row that GET returns, with its fields in the order asked for. -/
structure Record where
  entity : String
  id : String
  fields : List (String × Value)
deriving DecidableEq

namespace Record

/-- The value of a field, if it was asked for. -/
def get? (r : Record) (name : String) : Option Value :=
  r.fields.lookup name

def toJson (r : Record) : Json :=
  .ofMembers [("entity", .string r.entity), ("id", .string r.id),
    ("fields", .ofMembers (r.fields.map fun f => (f.1, f.2.toJson)))]

end Record

/-- What running a plan produces. -/
inductive Outcome
  | records (found : List Record)
  | verdict (v : Verdict)
  /-- The edge that is there now, and whether it was not there before. -/
  | granted (edge : Edge) (created : Bool)
  /-- The edge that is not there now, and whether it was there before. -/
  | revoked (key : EdgeKey) (removed : Bool)
  | updated (entity : String) (count : Nat)
  | deleted (entity : String) (report : DeleteReport)
deriving DecidableEq

def Outcome.toJson : Outcome → Json
  | .records found => .array (found.map Record.toJson)
  | .verdict v => v.toJson
  | .granted edge created => .ofMembers [("edge", edge.toJson), ("created", .bool created)]
  | .revoked key removed =>
    .ofMembers [("subject", .string key.subject.write), ("object", .string key.object.write),
      ("permission", .string key.permission), ("removed", .bool removed)]
  | .updated entity count => .ofMembers [("entity", .string entity), ("updated", .int count)]
  | .deleted entity report =>
    .ofMembers [("entity", .string entity), ("deleted", .int report.rows),
      ("edges_removed", .int report.edgesRemoved),
      ("grants_orphaned", .int report.grantsOrphaned)]

/-- Why a plan fails. -/
inductive RunError
  /-- A reference to one row matched none. -/
  | notFound (target : Target)
  /-- A reference to one row matched several. -/
  | ambiguous (target : Target) (count : Nat)
  /-- The principal may not administer the resource. -/
  | forbidden (principal : Node) (action : Verb) (resource : Node)
  /-- An assigned value does not fit the type that the plan gives. -/
  | typeMismatch (entity field : String) (expected : FieldType) (found : Value)
  /-- The plan is for somebody else. -/
  | principalMismatch (plan caller : Principal)
  /-- The plan was resolved under another schema. -/
  | staleSchema (plan current : UInt32)
  | store (e : StoreError)

namespace RunError

def code : RunError → String
  | .notFound _ => "Runtime.NotFound"
  | .ambiguous .. => "Runtime.AmbiguousMatch"
  | .forbidden .. => "Runtime.Forbidden"
  | .typeMismatch .. => "Runtime.TypeMismatch"
  | .principalMismatch .. => "Runtime.PrincipalMismatch"
  | .staleSchema .. => "Runtime.StaleSchema"
  | .store e => "Store." ++ e.code

def write : RunError → String
  | .notFound target => "no " ++ target.entity ++ " matches " ++ target.filter.write
  | .ambiguous target count =>
    toString count ++ " " ++ target.entity ++ " rows match " ++ target.filter.write ++
      ", expected one"
  | .forbidden principal action resource =>
    principal.write ++ " may not " ++ action.word ++ " on " ++ resource.write ++
      ": requires '" ++ Schema.adminPermission ++ "'"
  | .typeMismatch entity field expected found =>
    "field '" ++ entity ++ "." ++ field ++ "' expects " ++ expected.name ++ ", got " ++
      found.typeName
  | .principalMismatch plan caller =>
    "plan was compiled for " ++ plan.write ++ ", but the caller is " ++ caller.write
  | .staleSchema plan current =>
    "plan schema " ++ Text.hexWord plan ++ " does not match current schema " ++
      Text.hexWord current
  | .store e => e.write

/-- Whether the same plan may succeed when it is run again. -/
def isRetryable : RunError → Bool
  | .store e => e.isRetryable
  | _ => false

end RunError

end Warrant
