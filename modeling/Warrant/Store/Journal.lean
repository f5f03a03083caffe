import Warrant.Store.Script

/-!
# Journals

A store can be watched: a journal in front of it takes down every call before it goes on to the
store. A journal can also carry a planned fault, to see what an evaluation makes of a store that
fails.

## Main definitions

- `Fault` — which call meets what mishap
- `Journal` — a store, the calls so far and the fault planned
- `Journal.answer` — a call to a store with a journal
-/

namespace Warrant

/-- What befalls a call. -/
inductive Mishap
  /-- The caller gives up just before the call, which goes on to the store. -/
  | cancel
  | conflict
  | backend
  | poisoned
  | cancelled
  | deadline
deriving DecidableEq, Repr

/-- The failure of a call that does not reach the store. -/
def Mishap.error? (call : Call) : Mishap → Option StoreError
  | .cancel => none
  | .conflict => some (.conflict (call.name ++ " lost"))
  | .backend => some (.backend (call.name ++ " failed"))
  | .poisoned => some .lockPoisoned
  | .cancelled => some .cancelled
  | .deadline => some .deadlineExceeded

/-- A planned mishap. -/
structure Fault where
  /-- The name of the calls that count; all calls count if there is none. -/
  callName : Option String
  /-- Which of these calls it is, counted from one. -/
  position : Nat
  mishap : Mishap

/-- A store, and what is taken down about it. -/
structure Journal (σ : Type) where
  store : σ
  /-- The calls so far, the latest first. -/
  calls : List Call
  fault : Option Fault

namespace Journal

variable {σ : Type}

/-- A journal without calls. -/
def start (store : σ) (fault : Option Fault) : Journal σ :=
  ⟨store, [], fault⟩

/-- The lines of a journal in the order of the calls. -/
def lines (j : Journal σ) : List String :=
  j.calls.reverse.map Call.write

/-- Whether the latest call is the one that a fault waits for. -/
def isDue (calls : List Call) (fault : Fault) : Bool :=
  match calls with
  | [] => false
  | latest :: _ =>
    let counts (c : Call) : Bool := fault.callName.all (c.name == ·)
    counts latest && calls.countP counts == fault.position

/-- The mishap that befalls the latest call. -/
def mishap? (calls : List Call) (fault : Option Fault) : Option Mishap :=
  (fault.filter (isDue calls)).map Fault.mishap

/-- Whether a call ends a transaction, even when it fails. -/
def endsTransaction : Call → Bool
  | .commit => true
  | .rollback => true
  | _ => false

/-- A call that goes on to the store. -/
def pass (store : Script.Store σ) (j : Journal σ) (call : Call) : call.Answer × Journal σ :=
  let (a, s) := store j.store call
  (a, { j with store := s })

/-- **A call to a store with a journal.** Asking whether to go on is no call to the store. The
    store is told by `cancel` that the caller gives up, and by `abandon` that the transaction ends
    without a call. -/
def answer (store : Script.Store σ) (cancel abandon : σ → σ) : Script.Store (Journal σ)
  | j, .poll => pass store j .poll
  | j, call =>
    let calls := call :: j.calls
    match mishap? calls j.fault with
    | none => pass store { j with calls := calls } call
    | some mishap =>
      match mishap.error? call with
      | none => pass store { j with store := cancel j.store, calls := calls } call
      | some e =>
        let s := if endsTransaction call then abandon j.store else j.store
        (.error e, { j with store := s, calls := calls })

end Journal

end Warrant
