import Warrant.Service.Basic
import Warrant.Store.Trace

/-!
# Sessions

A session is a conversation with a service over one memory store. It keeps by name what one step
leaves for later ones: cancellation tokens, plans, statements, snapshots and open transactions.

## Main definitions

- `Session` — a service, a store, and what has been kept
- `Session.interrupt` — when a step gives up
- `Session.send` — a request to the service
- `Session.begin`, `Session.updateFields`, `Session.commit`, `Session.rollback` — a transaction
  by hand
- `Session.graph`, `Session.tables`, `Session.touchingEdges` — what the store holds
-/

namespace Warrant

/-- An open transaction. -/
structure Transaction where
  working : Graph
  interrupt : Interrupt

/-- A service, a store, and what has been kept by name. Of two things of one kind and name the
    later counts. -/
structure Session where
  service : Service
  memory : Memory
  /-- Whether requests are taken down in a journal. -/
  traced : Bool
  /-- The journal of the latest request. -/
  journal : List String
  signals : Signals
  tokens : List (String × Nat)
  plans : List (String × Plan)
  statements : List (String × Statement)
  snapshots : List (String × Graph)
  transactions : List (String × Transaction)

namespace Session

variable {α : Type}

/-- A session over an empty store with the tables of a schema. -/
def start (service : Service) (tables : Schema) (traced : Bool) : Session :=
  ⟨service, .ofSchema tables, traced, [], .empty, [], [], [], [], []⟩

/-- Keeps a plan. -/
def keepPlan (s : Session) (name : String) (plan : Plan) : Session :=
  { s with plans := (name, plan) :: s.plans }

/-- Keeps a statement. -/
def keepStatement (s : Session) (name : String) (statement : Statement) : Session :=
  { s with statements := (name, statement) :: s.statements }

/-- Keeps what the store publishes now. -/
def keepSnapshot (s : Session) (name : String) : Session :=
  { s with snapshots := (name, s.memory.published) :: s.snapshots }

/-- A new token. -/
def issue (s : Session) : Nat × Session :=
  let (token, signals) := s.signals.issue
  (token, { s with signals := signals })

/-- The token of a name, which is issued when the name first comes up. -/
def token (s : Session) (name : String) : Nat × Session :=
  match s.tokens.lookup name with
  | some token => (token, s)
  | none =>
    let (token, s) := s.issue
    (token, { s with tokens := (name, token) :: s.tokens })

/-- Fires the token of a name. -/
def cancel (s : Session) (name : String) : Session :=
  let (token, s) := s.token name
  { s with signals := s.signals.fire token }

/-- **When a step gives up**: as the service says, unless the step names a token, a limit in
    milliseconds, or a deadline that has passed. -/
def interrupt (s : Session) (tokenName : Option String) (limit : Option Nat) (expired : Bool) :
    Interrupt × Session :=
  let (token, s) := match tokenName with
    | some name => s.token name
    | none => s.issue
  let i := s.service.interrupt token
  let i := match limit with
    | some milliseconds => i.withDeadline (.after milliseconds)
    | none => i
  (if expired then i.withDeadline .passed else i, s)

/-- **A request to the service.** A direct one goes past the journal. -/
def send (s : Session) (i : Interrupt) (fault : Option Fault) (direct : Bool)
    (request : Request α) : Except ServiceError α × Session :=
  let t := if s.traced && !direct then s.memory.trace s.signals i fault request.run
    else s.memory.run s.signals i request.run
  (t.result, { s with memory := t.memory, signals := t.signals, journal := t.lines })

/-- Adds rows to the store. -/
def insertRows (s : Session) (entity : String) (rows : List Row) :
    Except StoreError Unit × Session :=
  match s.memory.insertRows entity rows with
  | .ok m => (.ok (), { s with memory := m })
  | .error e => (.error e, s)

/-- Opens a transaction. -/
def begin (s : Session) (name : String) (i : Interrupt) : Except StoreError Unit × Session :=
  match s.memory.begin (i.check s.signals) with
  | .ok (working, m) =>
    (.ok (), { s with memory := m, transactions := (name, ⟨working, i⟩) :: s.transactions })
  | .error e => (.error e, s)

/-- What becomes of the session when a change of an open transaction is tried. -/
def inTransaction (s : Session) (name : String)
    (change : Transaction → Except StoreError Unit × Session) : Except StoreError Unit × Session :=
  match s.transactions.lookup name with
  | some t => change t
  | none => (.error (.backend "no transaction is open"), s)

/-- Writes fields of a row in an open transaction. -/
def updateFields (s : Session) (name entity id : String) (values : List (String × Value)) :
    Except StoreError Unit × Session :=
  s.inTransaction name fun t =>
    match t.working.updateFields entity id values with
    | .ok working =>
      (.ok (), { s with transactions := (name, { t with working := working }) :: s.transactions })
    | .error e => (.error e, s)

/-- The session without an open transaction. -/
def without (s : Session) (name : String) : Session :=
  { s with transactions := s.transactions.filter (·.1 != name) }

/-- Publishes the changes of an open transaction. -/
def commit (s : Session) (name : String) : Except StoreError Unit × Session :=
  s.inTransaction name fun t =>
    let (result, m) := s.memory.commit (t.interrupt.check s.signals) t.working
    (result, { s.without name with memory := m })

/-- Drops the changes of an open transaction. -/
def rollback (s : Session) (name : String) : Except StoreError Unit × Session :=
  s.inTransaction name fun _ => (.ok (), { s.without name with memory := s.memory.release })

/-- The graph that an open transaction, a snapshot or, without either, anybody sees. -/
def graph (s : Session) (transactionName snapshotName : Option String) : Graph :=
  let working := transactionName >>= fun name => (s.transactions.lookup name).map (·.working)
  let snapshot := snapshotName >>= fun name => s.snapshots.lookup name
  (working.or snapshot).getD s.memory.published

/-- The published rows of every entity of the service. -/
def tables (s : Session) : List (String × Except StoreError (List Row)) :=
  s.service.schema.entities.map fun e => (e.name, s.memory.published.find e.name .all)

/-- The published edges with a row at either end. -/
def touchingEdges (s : Session) : List Edge :=
  let nodes : List Node := s.tables.flatMap fun t =>
    (t.2.toOption.getD []).map fun row => ⟨t.1, row.id⟩
  s.memory.published.edgeList.filter fun e =>
    nodes.contains e.key.subject || nodes.contains e.key.object

end Session

end Warrant
