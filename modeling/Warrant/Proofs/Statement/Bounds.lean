import Warrant.Proofs.Statement.Failing
import Warrant.Proofs.Statement.Phrases

/-!
# Bounds make no difference

Conditions, names and settings are read by recursion with a bound that the parser takes from the items
that it has left. A larger bound makes no difference, whether the items are a phrase or not: every
round takes a token at least, and the bound counts the rounds that the tokens are enough for.

## Main statements

- `Parser.conditions_congr` — conditions under a larger bound
- `Parser.moreOf_congr` — lists with commas under a larger bound
-/

namespace Warrant.Parser

open Grammar

variable {α β : Type} {p q : Parser} {b b' : Nat}

/-- Two programs do the same at a parser if their parts do where they get to. -/
theorem bind_congr_at {x x' : Action α} {f f' : α → Action β} (hx : x p = x' p)
    (hf : ∀ a q, Yields x' p a q → f a q = f' a q) : (x >>= f) p = (x' >>= f') p := by
  change EStateM.bind x f p = EStateM.bind x' f' p
  unfold EStateM.bind
  rw [hx]
  cases h : x' p with
  | ok a q => exact hf a q h
  | error e q => rfl

theorem peek_bind_congr_at {f f' : Token.Kind → Action α}
    (h : f p.current.kind p = f' p.current.kind p) : (peek >>= f) p = (peek >>= f') p :=
  h

/-- What is done after a step may suppose that a step is gone. -/
theorem advance_bind_congr_at {f f' : Unit → Action α} (hne : p.current.kind ≠ .finish)
    (h : ∀ q, q.left < p.left → f () q = f' () q) : (advance >>= f) p = (advance >>= f') p :=
  bind_congr_at rfl fun _ q hadvance => h q (left_lt_of_advance hne hadvance)

/-- **A larger bound makes no difference for conditions**, if it is large enough for the steps that
    are left. -/
theorem conditions_congr (b : Nat) :
    (∀ p b', 2 * p.left + 2 ≤ b → b ≤ b' → conditions b' p = conditions b p) ∧
    (∀ connective p b', 2 * p.left + 1 ≤ b → b ≤ b' →
      moreConditions b' connective p = moreConditions b connective p) ∧
    (∀ p b', 2 * p.left + 1 ≤ b → b ≤ b' → condition b' p = condition b p) := by
  induction b with
  | zero =>
    refine ⟨fun p b' h => ?_, fun _ p b' h => ?_, fun p b' h => ?_⟩
    · exact absurd h (Nat.not_succ_le_zero _)
    · exact absurd h (Nat.not_succ_le_zero _)
    · exact absurd h (Nat.not_succ_le_zero _)
  | succ b ih =>
    obtain ⟨ihLevel, ihOthers, ihCondition⟩ := ih
    -- The induction is on the bound. A condition leaves no more steps than it found, so what reads
    -- on after it has a bound that is large enough.
    have hleft {p : Parser} {c : Condition} {q : Parser} (h : Yields (condition b) p c q) :
        q.left ≤ p.left := by
      obtain ⟨ks, hmoves, -⟩ := (isLevel_of_yields_bounded b).2.2 h
      have hle := hmoves.left_le
      omega
    refine ⟨fun p b' h hb => ?level, fun connective p b' h hb => ?others,
      fun p b' h hb => ?condition⟩
    all_goals obtain ⟨b', rfl⟩ : ∃ n, b' = n + 1 := ⟨b' - 1, by omega⟩
    case level =>
      rw [conditions, conditions]
      refine bind_congr_at (ihCondition p b' (by omega) (by omega)) fun first q hfirst => ?_
      have hq := hleft hfirst
      refine peek_bind_congr_at ?_
      cases connectiveOf? q.current.kind with
      | none => rfl
      | some connective =>
        exact bind_congr_at (ihOthers connective q b' (by omega) (by omega)) fun _ _ _ => rfl
    case others =>
      rw [moreConditions, moreConditions]
      refine peek_bind_congr_at ?_
      cases hfound : connectiveOf? p.current.kind with
      | none => rfl
      | some found =>
        have hne : p.current.kind ≠ .finish := by
          rw [connectiveOf?_eq_some_iff.1 hfound]
          exact keyword_ne_finish
        by_cases heq : found = connective
        · simp only [if_pos heq]
          refine advance_bind_congr_at hne fun p₁ hp₁ => ?_
          refine bind_congr_at (ihCondition p₁ b' (by omega) (by omega)) fun c p₂ hc => ?_
          have hp₂ := hleft hc
          exact bind_congr_at (ihOthers connective p₂ b' (by omega) (by omega)) fun _ _ _ => rfl
        · simp only [if_neg heq]
    case condition =>
      rw [condition, condition]
      refine peek_bind_congr_at ?_
      by_cases hopen : p.current.kind = .sign .leftParen
      · rw [hopen]
        refine advance_bind_congr_at (hopen ▸ sign_ne_finish) fun p₁ hp₁ => ?_
        exact bind_congr_at (ihLevel p₁ b' (by omega) (by omega)) fun _ _ _ => rfl
      · generalize p.current.kind = k at hopen
        cases k with
        | sign s =>
          cases s with
          | leftParen => exact absurd rfl hopen
          | _ => rfl
        | _ => rfl

/-- A larger bound makes no difference for things after commas. -/
theorem moreOf_congr {item : Action α} (hitem : ∀ p x q, Yields item p x q → q.left ≤ p.left)
    (h : p.left ≤ b) (hb : b ≤ b') : moreOf item b' p = moreOf item b p := by
  induction b generalizing b' p with
  | zero =>
    cases b' with
    | zero => rfl
    | succ b' =>
      have hfinish : p.current.kind = .finish := by
        by_contra hne
        rw [left, if_neg hne] at h
        exact absurd h (Nat.not_succ_le_zero _)
      rw [moreOf, moreOf]
      change (if p.current.kind = .sign .comma then _ else pure [] : Action _) p = _
      rw [if_neg (hfinish.trans_ne sign_ne_finish.symm)]
  | succ b ih =>
    obtain ⟨b', rfl⟩ : ∃ n, b' = n + 1 := ⟨b' - 1, by omega⟩
    rw [moreOf, moreOf]
    refine peek_bind_congr_at ?_
    by_cases hcomma : p.current.kind = .sign .comma
    · simp only [if_pos hcomma]
      refine advance_bind_congr_at (hcomma ▸ sign_ne_finish) fun p₁ hp₁ => ?_
      refine bind_congr_at rfl fun x p₂ hx => ?_
      have hp₂ := hitem p₁ x p₂ hx
      exact bind_congr_at (ih (by omega) (by omega)) fun _ _ _ => rfl
    · simp only [if_neg hcomma]

end Warrant.Parser
