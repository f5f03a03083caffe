import Warrant.Proofs.Effect.Progress
import Warrant.Service.Basic

/-!
# Compiled texts do not go wrong

A service compiles a text and runs its plan at once. If the text compiles, the plan is for its caller
and carries the version of the service, every entity it speaks of has a table, and its values have the
declared types. So nothing is left to fail but what depends on the rows and permissions of the
moment.

## Main statements

- `Service.attempt_runPlanned` — a plan of the service's own version is run as it is
- `Service.runText_sound` — compiled texts do not go wrong
-/

namespace Warrant

variable {α β ι : Type}

/-- A result that is changed afterwards does not change what happens to the store. -/
theorem Memory.attempt_map (watch : Watch ι) (m : Memory) (caller : ι) (f : α → β)
    (x : Script α) :
    m.attempt watch caller (f <$> x) =
      (f (m.attempt watch caller x).1, (m.attempt watch caller x).2) := by
  have h : f <$> x = x.bind fun a => .done (f a) := (bind_pure_comp f x).symm
  rw [attempt, h, Script.run_bind]
  rfl

namespace Service

variable {s : Service} {m : Memory} {caller : Principal} {now : Instant} {plan : Plan}

/-- **A plan of the service's own version** is run as it is. -/
theorem attempt_runPlanned {ε : Type} (hversion : plan.schemaVersion = s.version)
    (wrap : ε → ServiceError) (watch : Watch ι) (m : Memory) (c : ι) :
    m.attempt watch c (s.runPlanned now caller wrap (.ok plan)).run =
      ((m.attempt watch c (plan.execute now caller).run).1.mapError .run,
        (m.attempt watch c (plan.execute now caller).run).2) := by
  have h : (s.runPlanned now caller wrap (.ok plan)).run =
      Except.mapError .run <$> (plan.execute now caller).run := by
    rw [← run_of_version hversion]
    rfl
  rw [h, Memory.attempt_map]

/-- **Compiled texts do not go wrong.** On every store that a program can come across, a text that
compiles for its caller has an outcome, or it fails because a row is not there, because there are
several, or because its caller may not do what it says. If every row had values of the declared
types, every row still has. -/
theorem runText_sound (hschema : s.schema.validate = .ok ()) (hm : m.Reachable s.schema)
    {text : String} (hplan : s.plan caller text = .ok plan) (now : Instant) :
    let run := m.attempt Watch.never () (s.runText now caller text).run
    ((∃ o, run.1 = .ok o) ∨ ∃ e, run.1 = .error (.run e) ∧ e.IsOrdinary) ∧
      (m.published.Conforms s.schema → run.2.memory.published.Conforms s.schema) := by
  intro run
  have hs := Schema.isSound_of_validate hschema
  obtain ⟨statement, -, hresolve⟩ := compile_eq_ok_iff.1 hplan
  obtain ⟨htyped, hversion⟩ := Statement.resolve_isTyped hs hresolve
  obtain ⟨hcaller, hfits⟩ := Statement.resolve_fits hresolve
  -- The plan has the version of the service, so the text runs as its plan does.
  have hrun : run = ((m.attempt Watch.never () (plan.execute now caller).run).1.mapError .run,
      (m.attempt Watch.never () (plan.execute now caller).run).2) := by
    have htext : s.runText now caller text = s.runPlanned now caller .compile (.ok plan) := by
      rw [runText, hplan]
    rw [← attempt_runPlanned hversion .compile, ← htext]
  have hwell : GoesWell (plan.effect now caller m) := by
    rw [Plan.effect, if_neg (not_not.2 hcaller)]
    exact Operation.goesWell_effect hm.idle hm.intact.keyed hm.houses hfits htyped now caller.node
  rw [hrun]
  cases heffect : plan.effect now caller m with
  | error e =>
    obtain ⟨hresult, hmemory⟩ := Plan.attempt_never_of_error heffect
    rw [hresult, hmemory]
    exact ⟨.inr ⟨e, rfl, hwell e heffect⟩, id⟩
  | ok r =>
    obtain ⟨o, g⟩ := r
    obtain ⟨hresult, hmemory⟩ := Plan.attempt_never_of_ok heffect
    rw [hresult, hmemory]
    have hstep := Operation.step_of_effect (Plan.effect_eq_ok_iff.1 heffect).2
    exact ⟨.inl ⟨o, rfl⟩, fun hconforms => hconforms.step hs htyped hstep⟩

/-- alice renames her document. -/
theorem runText_sound_renamed :
    ∃ (s : Service) (alice : Principal) (now : Instant) (m : Memory),
      (Memory.ofSchema s.schema).insertRows "Resource"
        [.ofFields "doc" [("owner", .string "alice"), ("name", .string "draft")]] = .ok m ∧
      let run := m.attempt Watch.never () (s.runText now alice
        "UPDATE Resource(owner = SELF) SET name = \"final\"").run
      ((∃ o, run.1 = .ok o) ∨ ∃ e, run.1 = .error (.run e) ∧ e.IsOrdinary) ∧
        run.2.memory.published.Conforms s.schema := by
  let alice : Principal := ⟨"User", "alice"⟩
  let now : Instant := ⟨⟨2024, 1, 1, by decide, by decide⟩, 0, 0, by decide, by decide, by decide⟩
  obtain ⟨m, hm, hconforms⟩ : ∃ m,
      (Memory.ofSchema .standard).insertRows "Resource"
        [.ofFields "doc" [("owner", .string "alice"), ("name", .string "draft")]] = .ok m ∧
      m.published.Conforms .standard := ⟨_, rfl, by decide +kernel⟩
  have hcompiled : (compile .standard alice
      "UPDATE Resource(owner = SELF) SET name = \"final\"").isOk = true := by decide +kernel
  obtain ⟨plan, hplan⟩ := isOk_iff.1 hcompiled
  have hsound := runText_sound (s := ⟨.standard, none⟩) Schema.validate_standard
    (.inserted .start hm) hplan now
  exact ⟨⟨.standard, none⟩, alice, now, m, hm, hsound.1, hsound.2 hconforms⟩

end Service

end Warrant
