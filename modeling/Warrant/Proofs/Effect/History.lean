import Warrant.Execution.Basic

/-!
# Histories

Whatever a store answers, an evaluation goes from call to call and ends. Its history is the list of
its calls with the answers that they met. Histories of one evaluation after another are put together
from those of the two, so that nothing has to be known about the store.

## Main definitions

- `Exchange` — a call and the answer that it met
- `Script.history` — the history of a script against a store
- `Script.Goes`, `Evaluation.Plays` — the histories that some store may give rise to

## Main statements

- `Script.goes_history` — what happens against a store may happen
- `Evaluation.plays_bind_iff` — the histories of one evaluation after another
-/

namespace Warrant

variable {α β σ : Type}

structure Exchange where
  call : Call
  answer : call.Answer

namespace Script

/-- The calls of a script against a store, with their answers, in order. -/
def history (store : Store σ) : Script α → σ → List Exchange
  | .done _, _ => []
  | .ask call next, s =>
    ⟨call, (store s call).1⟩ :: (next (store s call).1).history store (store s call).2

/-- **A script goes through a history** and ends, for answers of any kind. -/
inductive Goes : Script α → List Exchange → α → Prop
  | done (a : α) : Goes (.done a) [] a
  | ask {call : Call} {next : call.Answer → Script α} (answer : call.Answer) {h : List Exchange}
    {a : α} (hnext : Goes (next answer) h a) : Goes (.ask call next) (⟨call, answer⟩ :: h) a

/-- What happens against a store may happen. -/
theorem goes_history (store : Store σ) (x : Script α) (s : σ) :
    x.Goes (x.history store s) (x.run store s).1 := by
  induction x generalizing s with
  | done a => exact .done a
  | ask call next ih => exact .ask _ (ih _ _)

theorem goes_done_iff {a b : α} {h : List Exchange} :
    (Script.done a).Goes h b ↔ h = [] ∧ b = a := by
  constructor
  · rintro ⟨⟩
    exact ⟨rfl, rfl⟩
  · rintro ⟨rfl, rfl⟩
    exact .done b

theorem goes_ask_iff {call : Call} {next : call.Answer → Script α} {h : List Exchange} {a : α} :
    (Script.ask call next).Goes h a ↔
      ∃ answer h', h = ⟨call, answer⟩ :: h' ∧ (next answer).Goes h' a := by
  constructor
  · rintro (_ | @⟨_, _, answer, h', _, hnext⟩)
    exact ⟨answer, h', rfl, hnext⟩
  · rintro ⟨answer, h', rfl, hnext⟩
    exact .ask answer hnext

/-- **The history of one script after another** is that of the first and then that of the second. -/
theorem goes_bind_iff {x : Script α} {f : α → Script β} {h : List Exchange} {b : β} :
    (x.bind f).Goes h b ↔ ∃ h₁ a h₂, x.Goes h₁ a ∧ (f a).Goes h₂ b ∧ h = h₁ ++ h₂ := by
  induction x generalizing h with
  | done a =>
    constructor
    · intro hf
      exact ⟨[], a, h, .done a, hf, rfl⟩
    · rintro ⟨h₁, a', h₂, hx, hf, rfl⟩
      obtain ⟨rfl, rfl⟩ := goes_done_iff.1 hx
      exact hf
  | ask call next ih =>
    rw [bind, goes_ask_iff]
    constructor
    · rintro ⟨answer, h', rfl, hnext⟩
      obtain ⟨h₁, a, h₂, hx, hf, rfl⟩ := (ih answer).1 hnext
      exact ⟨⟨call, answer⟩ :: h₁, a, h₂, .ask answer hx, hf, rfl⟩
    · rintro ⟨h₁, a, h₂, hx, hf, rfl⟩
      obtain ⟨answer, h', rfl, hnext⟩ := goes_ask_iff.1 hx
      exact ⟨answer, h' ++ h₂, rfl, (ih answer).2 ⟨h', a, h₂, hnext, hf, rfl⟩⟩

end Script

namespace Evaluation

/-- An evaluation goes through a history and ends with a result. -/
def Plays (x : Evaluation α) (h : List Exchange) (r : Except RunError α) : Prop :=
  x.run.Goes h r

variable {x : Evaluation α} {f : α → Evaluation β} {h : List Exchange}

theorem plays_pure_iff {a : α} {r : Except RunError α} :
    Plays (pure a) h r ↔ h = [] ∧ r = .ok a :=
  Script.goes_done_iff

theorem plays_throw_iff {e : RunError} {r : Except RunError α} :
    Plays (throw e) h r ↔ h = [] ∧ r = .error e :=
  Script.goes_done_iff

theorem plays_ask_iff {call : Call} {r : Except RunError call.Result} :
    Plays (ask call) h r ↔ ∃ answer, h = [⟨call, answer⟩] ∧ r = answer.mapError .store := by
  refine Script.goes_ask_iff.trans ⟨?_, ?_⟩
  · rintro ⟨answer, h', rfl, hdone⟩
    obtain ⟨rfl, rfl⟩ := Script.goes_done_iff.1 hdone
    exact ⟨answer, rfl, rfl⟩
  · rintro ⟨answer, rfl, rfl⟩
    exact ⟨answer, [], rfl, .done _⟩

/-- **The histories of one evaluation after another**: the second is played when the first has
    succeeded. -/
theorem plays_bind_iff {r : Except RunError β} : (x >>= f).Plays h r ↔
    (∃ e, x.Plays h (.error e) ∧ r = .error e) ∨
      ∃ h₁ a h₂, x.Plays h₁ (.ok a) ∧ (f a).Plays h₂ r ∧ h = h₁ ++ h₂ := by
  rw [Plays, ExceptT.run_bind]
  refine Script.goes_bind_iff.trans ⟨?_, ?_⟩
  · rintro ⟨h₁, result, h₂, hx, hf, rfl⟩
    cases result with
    | ok a => exact .inr ⟨h₁, a, h₂, hx, hf, rfl⟩
    | error e =>
      obtain ⟨rfl, rfl⟩ := Script.goes_done_iff.1 hf
      rw [List.append_nil]
      exact .inl ⟨e, hx, rfl⟩
  · rintro (⟨e, hx, rfl⟩ | ⟨h₁, a, h₂, hx, hf, rfl⟩)
    · exact ⟨h, .error e, [], hx, .done _, (List.append_nil h).symm⟩
    · exact ⟨h₁, .ok a, h₂, hx, hf, rfl⟩

theorem plays_bind_ok_iff {b : β} : (x >>= f).Plays h (.ok b) ↔
    ∃ h₁ a h₂, x.Plays h₁ (.ok a) ∧ (f a).Plays h₂ (.ok b) ∧ h = h₁ ++ h₂ := by
  rw [plays_bind_iff]
  exact or_iff_right fun ⟨_, _, h⟩ => nomatch h

end Evaluation

end Warrant
