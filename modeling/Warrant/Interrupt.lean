import Warrant.Graph.Basic

/-!
# Interrupts

A caller may give up on an evaluation: by firing a cancellation token, which can be shared between
evaluations, or by a deadline. An evaluation asks at every step whether to go on, and a writer that
waits for another one asks again and again while it waits.

## Main definitions

- `Signals` — the tokens handed out so far, and which of them have fired
- `Interrupt` — the token and the deadline of one evaluation
- `Interrupt.check` — whether to go on
- `Watch` — any way of answering that question again and again
- `Watch.wait` — the answer to a writer that waits
-/

namespace Warrant

/-- The cancellation tokens handed out so far, numbered from zero, and those that have fired. -/
structure Signals where
  issued : Nat
  fired : List Nat
deriving DecidableEq, Repr

namespace Signals

/-- No token has been handed out. -/
def empty : Signals := ⟨0, []⟩

/-- A new token, which has not fired. -/
def issue (s : Signals) : Nat × Signals :=
  (s.issued, { s with issued := s.issued + 1 })

/-- Fires a token. -/
def fire (s : Signals) (token : Nat) : Signals :=
  { s with fired := token :: s.fired }

/-- Whether a token has fired. -/
def hasFired (s : Signals) (token : Nat) : Bool :=
  s.fired.contains token

end Signals

/-- Where a deadline lies. A deadline ahead is not reached by an evaluation, but by a writer that
    waits for another one to finish. -/
inductive Deadline
  | passed
  | ahead
deriving DecidableEq, Repr

/-- The deadline after some milliseconds. -/
def Deadline.after (milliseconds : Nat) : Deadline :=
  if milliseconds = 0 then .passed else .ahead

/-- When to give up. -/
structure Interrupt where
  token : Nat
  deadline : Option Deadline
deriving DecidableEq, Repr

namespace Interrupt

/-- Gives up when a token fires. -/
def ofToken (token : Nat) : Interrupt := ⟨token, none⟩

/-- Watches another token. -/
def withToken (i : Interrupt) (token : Nat) : Interrupt :=
  { i with token := token }

/-- Gives up at another deadline. -/
def withDeadline (i : Interrupt) (deadline : Deadline) : Interrupt :=
  { i with deadline := some deadline }

/-- **Whether to go on.** A token that has fired counts more than a deadline that has passed. -/
def check (i : Interrupt) (signals : Signals) : Except StoreError Unit :=
  if signals.hasFired i.token then .error .cancelled
  else if i.deadline = some .passed then .error .deadlineExceeded
  else .ok ()

end Interrupt

/-- A way of answering, again and again, whether to go on. -/
structure Watch (ι : Type) where
  /-- The answer, given what it hangs on, and what the next one hangs on. -/
  answer : ι → Except StoreError Unit × ι
  /-- For how many rounds a writer waits for another one before its deadline has passed. -/
  patience : Nat

namespace Watch

variable {ι : Type}

instance : CoeFun (Watch ι) fun _ => ι → Except StoreError Unit × ι := ⟨answer⟩

/-- Nobody gives up, and nobody waits. -/
def never : Watch Unit :=
  ⟨fun _ => (.ok (), ()), 0⟩

/-- **A writer waits**: it asks before every round, and a last time when the rounds are over, unless
    it has been told to give up. -/
def wait (watch : Watch ι) : Nat → ι → Except StoreError Unit × ι
  | 0, i => watch i
  | rounds + 1, i =>
    match watch i with
    | (.ok (), i) => watch.wait rounds i
    | (.error reason, i) => (.error reason, i)

/-- Who gives up while it waits has been told to by one of the answers. -/
theorem exists_of_wait_eq_error (watch : Watch ι) {rounds : Nat} {i : ι} {reason : StoreError}
    (h : (watch.wait rounds i).1 = .error reason) : ∃ j, (watch j).1 = .error reason := by
  induction rounds generalizing i with
  | zero => exact ⟨i, h⟩
  | succ rounds ih =>
    rw [wait] at h
    split at h
    · exact ih h
    · next hanswer => exact ⟨i, (congrArg Prod.fst hanswer).trans h⟩

end Watch

namespace Interrupt

/-- The answers that an interrupt gives while tokens may fire. Rounds of waiting would make no
    difference to them: see `Interrupt.wait_watch`. -/
def watch (i : Interrupt) : Watch Signals :=
  ⟨fun signals => (i.check signals, signals), 0⟩

/-- No token fires while nothing is done but wait, so the first answer is the last. -/
theorem wait_watch (i : Interrupt) (rounds : Nat) (signals : Signals) :
    i.watch.wait rounds signals = i.watch signals := by
  induction rounds with
  | zero => rfl
  | succ rounds ih =>
    rw [Watch.wait]
    split
    · next hanswer =>
      obtain rfl : signals = _ := congrArg Prod.snd hanswer
      exact ih
    · next hanswer => exact hanswer.symm

end Interrupt

end Warrant
