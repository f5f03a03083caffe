import Warrant.Interrupt
import Warrant.Store.Script

/-!
# The memory store

The memory store publishes one graph. A reader takes the published graph as it is and keeps it. A
writer takes a copy, which becomes the published graph when its transaction is committed; there is
one writer at a time.

## Main definitions

- `Memory` — the published graph, and whether a transaction is open
- `Memory.begin`, `Memory.commit`, `Memory.release` — the life of a transaction
- `Memory.insertRows` — rows from outside
- `Client`, `Client.answer` — one evaluation at work on the store
-/

namespace Warrant

/-- What a memory store holds. -/
structure Memory where
  published : Graph
  /-- Whether a transaction is open. -/
  busy : Bool
deriving DecidableEq

namespace Memory

/-- The store with an empty table for every entity of a schema. -/
def ofSchema (s : Schema) : Memory :=
  ⟨.ofSchema s, false⟩

/-- Opens a transaction, unless its caller has given up. The result is the working copy. If another
    transaction is open and stays open, its caller has waited for it until a deadline has passed. -/
def begin (m : Memory) (goOn : Except StoreError Unit) : Except StoreError (Graph × Memory) := do
  goOn
  if m.busy then throw .deadlineExceeded
  return (m.published, { m with busy := true })

/-- Closes the open transaction; its changes are lost. -/
def release (m : Memory) : Memory :=
  { m with busy := false }

/-- Closes the open transaction and publishes its working copy, unless its caller has given up:
    then the changes are lost. -/
def commit (m : Memory) (goOn : Except StoreError Unit) (working : Graph) :
    Except StoreError Unit × Memory :=
  match goOn with
  | .ok () => (.ok (), ⟨working, false⟩)
  | .error e => (.error e, m.release)

/-- Publishes rows that come from outside, in a transaction of their own. Nobody waits for rows with
    a deadline, so a call that meets an open transaction comes back when that has been closed. What
    the call does is said of idle stores: see `Memory.insertRows_of_idle`. -/
def insertRows (m : Memory) (entity : String) (rows : List Row) : Except StoreError Memory := do
  let (working, m) ← m.begin (.ok ())
  return { m.release with published := ← working.insertRows entity rows }

/-- An idle store publishes the rows at once, and is idle again. -/
theorem insertRows_of_idle {m : Memory} (hidle : m.busy = false) (entity : String)
    (rows : List Row) :
    m.insertRows entity rows =
      (m.published.insertRows entity rows).map fun g => { m with published := g } := by
  obtain ⟨g, busy⟩ := m
  obtain rfl : busy = false := hidle
  have hrun : insertRows ⟨g, false⟩ entity rows =
      g.insertRows entity rows >>= fun g' => Except.ok ⟨g', false⟩ := rfl
  rw [hrun]
  cases g.insertRows entity rows <;> rfl

end Memory

/-- What an evaluation sees of the store. -/
inductive View
  /-- Whatever is published. -/
  | current
  | snapshot (g : Graph)
  /-- The working copy of its transaction. -/
  | transaction (working : Graph)

/-- One evaluation at work on the store. -/
structure Client (ι : Type) where
  memory : Memory
  view : View
  /-- What the answers hang on when the evaluation asks whether to go on. -/
  caller : ι

namespace Client

variable {ι : Type}

/-- An evaluation that has not made a call yet. -/
def start (m : Memory) (caller : ι) : Client ι :=
  ⟨m, .current, caller⟩

/-- The graph that the evaluation sees. -/
def graph (c : Client ι) : Graph :=
  match c.view with
  | .current => c.memory.published
  | .snapshot g => g
  | .transaction working => working

/-- The answer to a write. It goes to the working copy, so there is none without a transaction. -/
def write {α : Type} (c : Client ι) (change : Graph → Except StoreError (α × Graph)) :
    Except StoreError α × Client ι :=
  match c.view with
  | .transaction working =>
    match change working with
    | .ok (a, working) => (.ok a, { c with view := .transaction working })
    | .error e => (.error e, c)
  | _ => (.error (.backend "no transaction is open"), c)

/-- Closes the transaction, if one is open; its changes are lost. -/
def abandon (c : Client ι) : Client ι :=
  match c.view with
  | .transaction _ => { c with memory := c.memory.release, view := .current }
  | _ => c

/-- Asks whether to go on. -/
def poll (watch : Watch ι) (c : Client ι) : Except StoreError Unit × Client ι :=
  let (goOn, caller) := watch c.caller
  (goOn, { c with caller := caller })

/-- For how many rounds a writer waits: for none when no transaction is open. -/
def rounds (watch : Watch ι) (c : Client ι) : Nat :=
  if c.memory.busy then watch.patience else 0

/-- Asks whether to go on as a writer does, who waits while another transaction is open. -/
def await (watch : Watch ι) (c : Client ι) : Except StoreError Unit × Client ι :=
  let (goOn, caller) := watch.wait (c.rounds watch) c.caller
  (goOn, { c with caller := caller })

/-- Opens a transaction. -/
def begin (watch : Watch ι) (c : Client ι) : Except StoreError Unit × Client ι :=
  let (goOn, c) := c.await watch
  match c.memory.begin goOn with
  | .ok (working, m) => (.ok (), { c with memory := m, view := .transaction working })
  | .error e => (.error e, c)

/-- Closes the transaction and publishes its changes. -/
def commit (watch : Watch ι) (c : Client ι) : Except StoreError Unit × Client ι :=
  match c.view with
  | .transaction working =>
    let (goOn, c) := c.poll watch
    let (result, m) := c.memory.commit goOn working
    (result, { c with memory := m, view := .current })
  | _ => (.error (.backend "no transaction is open"), c)

/-- **How the store answers a call.** -/
def answer (watch : Watch ι) : Script.Store (Client ι)
  | c, .poll => c.poll watch
  | c, .snapshot => (.ok (), { c with view := .snapshot c.memory.published })
  | c, .begin => c.begin watch
  | c, .find entity filter => (c.graph.find entity filter, c)
  | c, .findEdge key => (.ok (c.graph.findEdge key), c)
  | c, .upsertEdge edge => c.write fun g => .ok (g.upsertEdge edge)
  | c, .deleteEdge key => c.write fun g => .ok (g.deleteEdge key)
  | c, .updateFields entity id values =>
    c.write fun g => (g.updateFields entity id values).map fun g => ((), g)
  | c, .deleteRows entity filter cascade => c.write fun g => g.deleteRows entity filter cascade
  | c, .commit => c.commit watch
  | c, .rollback => (.ok (), c.abandon)

end Client

end Warrant
