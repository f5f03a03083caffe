import Warrant.Graph.Edge
import Warrant.Schema.Basic

/-!
# The permission graph

A graph holds a table of rows for every entity and the permissions that have been granted. This
module says what each change does to a graph; who may change it is decided elsewhere.

## Main definitions

- `Graph` — tables and edges
- `Graph.find`, `Graph.findEdge`, `Graph.edgesOf` — what can be asked of a graph
- `Graph.insertRows`, `Graph.upsertEdge`, `Graph.deleteEdge`, `Graph.updateFields`,
  `Graph.deleteRows` — what can be done to a graph
- `StoreError` — why a store does not answer
-/

namespace Warrant

/-- Why a store does not answer. -/
inductive StoreError
  /-- Another writer came first. -/
  | conflict (what : String)
  | cancelled
  | deadlineExceeded
  | lockPoisoned
  /-- There is no table for the entity. -/
  | unknownEntity (entity : String)
  | backend (what : String)
deriving DecidableEq, Repr

namespace StoreError

def code : StoreError → String
  | .conflict _ => "Conflict"
  | .cancelled => "Cancelled"
  | .deadlineExceeded => "DeadlineExceeded"
  | .lockPoisoned => "LockPoisoned"
  | .unknownEntity _ => "UnknownEntity"
  | .backend _ => "Backend"

def write : StoreError → String
  | .conflict what => "transaction conflict: " ++ what
  | .cancelled => "operation cancelled"
  | .deadlineExceeded => "deadline exceeded"
  | .lockPoisoned => "lock poisoned"
  | .unknownEntity entity => "unknown entity type '" ++ entity ++ "'"
  | .backend what => "store backend error: " ++ what

/-- Whether the same call may succeed when it is repeated. -/
def isRetryable : StoreError → Bool
  | .conflict _ => true
  | _ => false

end StoreError

/-- What else goes when a row is deleted. Rules touch edges only: a resource keeps the id of a
    deleted owner. -/
inductive CascadeRule
  | removeEdgesAsObject
  | removeEdgesAsSubject
  /-- Surviving edges forget that the row granted them. -/
  | clearGrantor
deriving DecidableEq, Repr

def CascadeRule.name : CascadeRule → String
  | .removeEdgesAsObject => "RemoveEdgesAsObject"
  | .removeEdgesAsSubject => "RemoveEdgesAsSubject"
  | .clearGrantor => "ClearGrantor"

/-- How much a deletion changed. -/
structure DeleteReport where
  rows : Nat
  edgesRemoved : Nat
  /-- How often an edge forgot its grantor. -/
  grantsOrphaned : Nat
deriving DecidableEq, Repr

/-- The rows of one entity by id. -/
abbrev Table := SortedMap String Row

/-- Tables of rows and granted permissions. -/
structure Graph where
  tables : SortedMap String Table
  /-- Every edge by its key, which is not kept a second time. -/
  edges : SortedMap EdgeKey Stamp
deriving DecidableEq

namespace Graph

/-- A graph with an empty table for every entity of a schema. -/
def ofSchema (s : Schema) : Graph :=
  ⟨SortedMap.ofList (s.entities.map fun e => (e.name, SortedMap.empty)), SortedMap.empty⟩

/-- The table of an entity. -/
def table (g : Graph) (entity : String) : Except StoreError Table :=
  match g.tables.get? entity with
  | some t => .ok t
  | none => .error (.unknownEntity entity)

/-- **The rows of an entity that a filter selects**, in the order of their ids. A filter that asks
    for one id and nothing else is answered by looking the id up. -/
def find (g : Graph) (entity : String) (filter : Filter) : Except StoreError (List Row) := do
  let t ← g.table entity
  match filter.pinnedId? with
  | some id => return (t.get? id).toList
  | none => return t.values.filter filter.selects

/-- The edge with a given key. -/
def findEdge (g : Graph) (key : EdgeKey) : Option Edge :=
  (g.edges.get? key).map fun stamp => ⟨key, stamp⟩

/-- All edges in the order of their keys. -/
def edgeList (g : Graph) : List Edge :=
  g.edges.toList.map fun b => ⟨b.1, b.2⟩

/-- The edges whose subject or object is a node. -/
def edgesOf (g : Graph) (node : Node) : List Edge :=
  g.edgeList.filter fun e => e.key.subject = node || e.key.object = node

/-- The number of rows of an entity. -/
def rowCount (g : Graph) (entity : String) : Except StoreError Nat := do
  return (← g.table entity).size

/-- The number of edges. -/
def edgeCount (g : Graph) : Nat :=
  g.edges.size

/-- The graph with another table for an entity. -/
def withTable (g : Graph) (entity : String) (t : Table) : Graph :=
  { g with tables := g.tables.insert entity t }

/-- Adds rows to the table of an entity. A row takes the place of one with its id. -/
def insertRows (g : Graph) (entity : String) (rows : List Row) : Except StoreError Graph := do
  let t ← g.table entity
  return g.withTable entity (rows.foldl (fun t row => t.insert row.id row) t)

/-- Adds an edge, or gives an edge with its key a new stamp, and tells whether it was added. -/
def upsertEdge (g : Graph) (e : Edge) : Bool × Graph :=
  (!g.edges.contains e.key, { g with edges := g.edges.insert e.key e.stamp })

/-- Removes the edge with a key, and tells whether there was one. -/
def deleteEdge (g : Graph) (key : EdgeKey) : Bool × Graph :=
  (g.edges.contains key, { g with edges := g.edges.erase key })

/-- Writes fields of the row with an id. -/
def updateFields (g : Graph) (entity id : String) (values : List (String × Value)) :
    Except StoreError Graph := do
  let t ← g.table entity
  match t.get? id with
  | some row => return g.withTable entity (t.insert id (row.setAll values))
  | none => throw (.backend ("row " ++ entity ++ "." ++ id ++ " does not exist"))

/-- What a rule does to the edges when a row is deleted. -/
def applyRule (node : Node) (state : SortedMap EdgeKey Stamp × DeleteReport)
    (rule : CascadeRule) : SortedMap EdgeKey Stamp × DeleteReport :=
  let (edges, report) := state
  match rule with
  | .removeEdgesAsObject =>
    let kept := edges.filter fun key _ => key.object ≠ node
    (kept, { report with edgesRemoved := report.edgesRemoved + (edges.size - kept.size) })
  | .removeEdgesAsSubject =>
    let kept := edges.filter fun key _ => key.subject ≠ node
    (kept, { report with edgesRemoved := report.edgesRemoved + (edges.size - kept.size) })
  | .clearGrantor =>
    let orphaned := edges.values.countP fun stamp => stamp.grantedBy = some node
    let cleared := edges.mapValues fun _ stamp =>
      if stamp.grantedBy = some node then { stamp with grantedBy := none } else stamp
    (cleared, { report with grantsOrphaned := report.grantsOrphaned + orphaned })

/-- **Deletes the rows of an entity that a filter selects**, and then, row by row in the order of
    their ids, applies the rules to the edges. -/
def deleteRows (g : Graph) (entity : String) (filter : Filter) (cascade : List CascadeRule) :
    Except StoreError (DeleteReport × Graph) := do
  let t ← g.table entity
  let ids := (t.values.filter filter.selects).map (·.id)
  let remaining := ids.foldl (fun t id => t.erase id) t
  let (edges, report) := ids.foldl
    (fun state id => cascade.foldl (applyRule ⟨entity, id⟩) state)
    (g.edges, ⟨ids.length, 0, 0⟩)
  return (report, { g.withTable entity remaining with edges := edges })

end Graph

end Warrant
