import Warrant.Filter

/-!
# Conjunctions of filters

Conjunctions are joined rather than nested, and the filter of every row vanishes in them. So it does
not matter how conditions are put together: a conjunction is the list of what it asks for, joining
conjunctions is appending these lists, and a row is selected by what is joined when all parts select
it.

## Main definitions

- `Filter.conjuncts` — what a filter asks for
- `Filter.conjunction` — the conjunction of some filters
- `Filter.Grouping` — a way to put filters together

## Main statements

- `Filter.conjuncts_and` — joining filters is appending what they ask for
- `Filter.and_lawful` — conjunction is associative, has a unit, and selects what both sides select
-/

namespace Warrant.Filter

variable {row : Row}

/-! ## What a filter asks for -/

/-- What a filter asks for: the parts of a conjunction, nothing for the filter of every row, and any
    other filter itself. -/
def conjuncts : Filter → List Filter
  | .all => []
  | .every parts => parts
  | f => [f]

/-- **Joining filters is appending what they ask for.** -/
theorem conjuncts_and (f g : Filter) : (f.and g).conjuncts = f.conjuncts ++ g.conjuncts := by
  cases f <;> cases g <;> simp [Filter.and, conjuncts]

/-- Of two filters that ask for something the conjunction is no single test. -/
theorem and_eq_every {f g : Filter} (hf : f ≠ .all) (hg : g ≠ .all) :
    f.and g = .every (f.conjuncts ++ g.conjuncts) := by
  cases f with
  | all => exact absurd rfl hf
  | compare | every | any =>
    cases g with
    | all => exact absurd rfl hg
    | compare | every | any => rfl

@[simp]
theorem all_and (f : Filter) : Filter.all.and f = f := by
  cases f <;> rfl

@[simp]
theorem and_all (f : Filter) : f.and .all = f := by
  cases f <;> rfl

theorem and_ne_all {f g : Filter} (hf : f ≠ .all) (hg : g ≠ .all) : f.and g ≠ .all := by
  rw [and_eq_every hf hg]
  exact nofun

/-- **Joining filters is associative.** Where none of them is the filter of every row, both sides are
    the conjunction of everything that is asked for. -/
theorem and_assoc (f g h : Filter) : (f.and g).and h = f.and (g.and h) := by
  by_cases hf : f = .all
  · rw [hf, all_and, all_and]
  by_cases hg : g = .all
  · rw [hg, and_all, all_and]
  by_cases hh : h = .all
  · rw [hh, and_all, and_all]
  calc (f.and g).and h
      = .every ((f.conjuncts ++ g.conjuncts) ++ h.conjuncts) := by
        rw [and_eq_every (and_ne_all hf hg) hh, conjuncts_and]
    _ = .every (f.conjuncts ++ (g.conjuncts ++ h.conjuncts)) := by
        rw [List.append_assoc]
    _ = f.and (g.and h) := by
        rw [and_eq_every hf (and_ne_all hg hh), conjuncts_and]

/-! ## Which rows are selected -/

theorem everySelects_eq_all (fs : List Filter) : everySelects row fs = fs.all (selects row) := by
  induction fs with
  | nil => rfl
  | cons f rest ih => rw [everySelects, ih, List.all_cons]

/-- A row is selected when everything that is asked for selects it. -/
theorem selects_eq_all_conjuncts (f : Filter) : f.selects row = f.conjuncts.all (selects row) := by
  cases f with
  | all => rw [selects, conjuncts, List.all_nil]
  | every parts => rw [selects, conjuncts, everySelects_eq_all]
  | compare | any => simp [conjuncts]

/-- A conjunction selects the rows that both sides select. -/
theorem selects_and (f g : Filter) : (f.and g).selects row = (f.selects row && g.selects row) := by
  rw [selects_eq_all_conjuncts, conjuncts_and, List.all_append, ← selects_eq_all_conjuncts,
    ← selects_eq_all_conjuncts]

/-! ## Many filters -/

/-- The conjunction of some filters. -/
def conjunction (fs : List Filter) : Filter :=
  fs.foldr Filter.and .all

/-- A way to put filters together, two at a time. -/
inductive Grouping
  | nothing
  | one (f : Filter)
  | both (left right : Grouping)

namespace Grouping

/-- The filters that are put together, in order. -/
def parts : Grouping → List Filter
  | nothing => []
  | one f => [f]
  | both left right => left.parts ++ right.parts

/-- What comes of putting them together. -/
def join : Grouping → Filter
  | nothing => .all
  | one f => f
  | both left right => left.join.and right.join

end Grouping

theorem conjunction_append (fs gs : List Filter) :
    conjunction (fs ++ gs) = (conjunction fs).and (conjunction gs) := by
  induction fs with
  | nil => exact (all_and _).symm
  | cons f rest ih =>
    have hcons (fs : List Filter) : conjunction (f :: fs) = f.and (conjunction fs) := rfl
    rw [List.cons_append, hcons, hcons, ih, and_assoc]

/-- What comes of putting filters together hangs on the filters alone. -/
theorem Grouping.join_eq (t : Grouping) : t.join = conjunction t.parts := by
  induction t with
  | nothing => rfl
  | one f => exact (and_all f).symm
  | both left right hleft hright => rw [join, parts, conjunction_append, hleft, hright]

theorem selects_conjunction (fs : List Filter) :
    (conjunction fs).selects row = fs.all (selects row) := by
  induction fs with
  | nil => rw [conjunction, List.foldr_nil, selects, List.all_nil]
  | cons f rest ih =>
    rw [conjunction, List.foldr_cons, selects_and, List.all_cons, ← ih]
    rfl

/-- **Conjunction is lawful.** It is associative, the filter of every row is its unit on both sides,
    and a conjunction selects what both sides select. So in whatever way filters are put together,
    one and the same filter comes of it, and it selects the rows that all of them select. -/
theorem and_lawful :
    (∀ f g h : Filter, (f.and g).and h = f.and (g.and h)) ∧
    (∀ f : Filter, Filter.all.and f = f ∧ f.and .all = f) ∧
    (∀ (row : Row) (f g : Filter),
      (f.and g).selects row = (f.selects row && g.selects row)) ∧
    ∀ t : Grouping, t.join = conjunction t.parts ∧
      ∀ row : Row, t.join.selects row = t.parts.all (selects row) := by
  refine ⟨and_assoc, fun f => ⟨all_and f, and_all f⟩, fun _ => selects_and, fun t => ?_⟩
  refine ⟨t.join_eq, fun row => ?_⟩
  rw [t.join_eq, selects_conjunction]

end Warrant.Filter
