import Mathlib.Logic.Relation
import Warrant.Proofs.Effect.Steps
import Warrant.Proofs.Resolution.Fit

/-!
# Runs of many plans

Plans are run on a store one after another, on behalf of different principals and at different
times, and any of them may fail or be given up. What every step of the published graph preserves,
a whole run preserves.

## Main definitions

- `Plan.CompiledFor` — a plan is the plan of some text
- `Memory.Ran` — a plan has been run on a store
- `Memory.Runs` — plans have been run, one after another
- `Memory.perform`, `Memory.performAll` — a plan, and plans one after another, that nobody gives up

## Main statements

- `Memory.Runs.preserves` — what steps preserve, runs preserve
-/

namespace Warrant

def Plan.CompiledFor (schema : Schema) (p : Principal) (plan : Plan) : Prop :=
  ∃ text, compile schema p text = .ok plan

theorem Plan.CompiledFor.fits {schema : Schema} {p : Principal} {plan : Plan}
    (h : plan.CompiledFor schema p) : plan.principal = p ∧ plan.operation.Fits schema := by
  obtain ⟨_, h⟩ := h
  exact compile_fits h

namespace Memory

variable {admits : Principal → Plan → Prop} {m m' : Memory}

/-- A plan has been run on a store on behalf of a principal, at any time and whatever the polls
    answered. -/
inductive Ran (admits : Principal → Plan → Prop) (m : Memory) : Memory → Prop
  | attempt {ι : Type} (watch : Watch ι) (caller : ι) (now : Instant) (p : Principal) (plan : Plan)
    (h : admits p plan) : Ran admits m (m.attempt watch caller (plan.execute now p).run).2.memory

/-- Plans have been run on a store, one after another. -/
abbrev Runs (admits : Principal → Plan → Prop) : Memory → Memory → Prop :=
  Relation.ReflTransGen (Ran admits)

/-- A run leaves the store as it was, or the published graph has taken a step. -/
theorem Ran.step (h : m.Ran admits m') :
    m' = m ∨ ∃ now p plan g, admits p plan ∧ plan.principal = p ∧
      m.published.Step now p.node plan.operation g ∧ m' = { m with published := g } := by
  cases h with
  | attempt watch caller now p plan h =>
    rcases plan.step_of_attempt watch m caller now p with hm | ⟨hp, g, hstep, hm⟩
    · exact .inl hm
    · exact .inr ⟨now, p, plan, g, h, hp, hstep, hm⟩

/-- **What steps preserve, runs preserve.** -/
theorem Runs.preserves {I : Graph → Prop} (h : m.Runs admits m')
    (hstep : ∀ {g g' : Graph} {now p plan}, admits p plan → plan.principal = p →
      g.Step now p.node plan.operation g' → I g → I g')
    (hm : I m.published) : I m'.published := by
  induction h with
  | refl => exact hm
  | tail _ hran ih =>
    rcases hran.step with rfl | ⟨now, p, plan, g, hadmits, hp, hg, rfl⟩
    · exact ih
    · exact hstep hadmits hp hg ih

end Memory

/-! ## Plans that nobody gives up -/

/-- A plan, and who runs it. -/
structure Job where
  caller : Principal
  plan : Plan

namespace Memory

/-- What a job gives when nobody gives up, and the store that it leaves. -/
def perform (m : Memory) (now : Instant) (job : Job) : Except RunError Outcome × Memory :=
  let r := m.attempt Watch.never () (job.plan.execute now job.caller).run
  (r.1, r.2.memory)

/-- **What jobs give, one after another**, each at its time, and the store that they leave. -/
def performAll : Memory → List (Instant × Job) → List (Except RunError Outcome) × Memory
  | m, [] => ([], m)
  | m, (now, job) :: rest =>
    let r := m.perform now job
    let rs := performAll r.2 rest
    (r.1 :: rs.1, rs.2)

variable {m : Memory} {now : Instant} {job : Job}

/-- A job that has an effect takes it. -/
theorem perform_of_ok {o : Outcome} {g : Graph} (h : job.plan.effect now job.caller m = .ok (o, g)) :
    m.perform now job = (.ok o, { m with published := g }) :=
  Prod.ext (Plan.attempt_never_of_ok h).1 (Plan.attempt_never_of_ok h).2

/-- A job that fails leaves the store as it was. -/
theorem perform_of_error {e : RunError} (h : job.plan.effect now job.caller m = .error e) :
    m.perform now job = (.error e, m) :=
  Prod.ext (Plan.attempt_never_of_error h).1 (Plan.attempt_never_of_error h).2

/-- What a job gives is what its effect says. -/
theorem perform_eq_ok_iff {o : Outcome} :
    (m.perform now job).1 = .ok o ↔ ∃ g, job.plan.effect now job.caller m = .ok (o, g) := by
  cases h : job.plan.effect now job.caller m with
  | ok r => simp [perform_of_ok h, Prod.ext_iff, eq_comm]
  | error e => simp [perform_of_error h]

end Memory

end Warrant
