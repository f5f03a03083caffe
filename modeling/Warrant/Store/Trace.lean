import Warrant.Store.Journal
import Warrant.Store.Memory

/-!
# Evaluations on a memory store

An evaluation on a memory store gives up when its interrupt says so. Whoever runs it learns its
result, what became of the store and of the tokens, and which calls were made.

## Main definitions

- `Memory.attempt` — an evaluation on a memory store, given up in any way
- `Memory.run` — an evaluation on a memory store
- `Memory.trace` — the same with a journal, and perhaps a planned fault
-/

namespace Warrant.Memory

variable {α ι : Type}

/-- What is known after an evaluation. -/
structure Trace (α : Type) where
  result : α
  memory : Memory
  signals : Signals
  /-- The lines of the journal, if there was one. -/
  lines : List String

/-- **An evaluation on a memory store**, which asks `watch` whether to go on. A transaction that is
    still open at the end is lost. -/
def attempt (watch : Watch ι) (m : Memory) (caller : ι) (script : Script α) : α × Client ι :=
  let (a, c) := script.run (Client.answer watch) (Client.start m caller)
  (a, c.abandon)

/-- An evaluation on a memory store that gives up when its interrupt says so. -/
def run (m : Memory) (signals : Signals) (interrupt : Interrupt) (script : Script α) : Trace α :=
  let (a, c) := m.attempt interrupt.watch signals script
  ⟨a, c.memory, c.caller, []⟩

/-- The caller of an evaluation gives up. -/
def cancel (interrupt : Interrupt) (c : Client Signals) : Client Signals :=
  { c with caller := c.caller.fire interrupt.token }

/-- **An evaluation on a memory store with a journal.** -/
def trace (m : Memory) (signals : Signals) (interrupt : Interrupt) (fault : Option Fault)
    (script : Script α) : Trace α :=
  let store := Journal.answer (Client.answer interrupt.watch) (cancel interrupt) Client.abandon
  let (a, j) := script.run store (Journal.start (Client.start m signals) fault)
  let c := j.store.abandon
  ⟨a, c.memory, c.caller, j.lines⟩

end Warrant.Memory
