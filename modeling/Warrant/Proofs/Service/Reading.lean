import Warrant.Proofs.Bytes.Utf8
import Warrant.Proofs.Resolution.Meaning
import Warrant.Proofs.Service.Soundness

/-!
# What GET returns

A text of GET goes a long way before rows come back: literals become values, conditions become a
filter, the filter of a selector is joined with that of a clause, and a filter that asks for one
identity is answered without a search. This module says what comes back, and nothing of the way: the
rows that the statement means, in the order of the bytes of their identities, with the fields asked
for.

## Main definitions

- `Projection.names` — the fields that GET returns

## Main statements

- `Service.runStatement_get` — GET returns the rows that the statement means
-/

namespace Warrant

open Bytes

/-- The fields that GET returns, which are all fields as declared if none are named. -/
def Projection.names (e : Entity) : Projection → List String
  | .all => e.fieldNames
  | .fields names => names

theorem Scope.projection_eq_ok {e : Entity} {projection : Projection} {names : List String}
    (h : Scope.projection e projection = .ok names) : names = projection.names e := by
  cases projection with
  | all => exact (Except.ok.inj h).symm
  | fields asked =>
    obtain ⟨_, -, h⟩ := bind_eq_ok_iff.1 h
    exact (Except.ok.inj h).symm

/-- The plan of GET has a filter that selects what the statement means. -/
theorem Statement.resolve_get {schema : Schema} (hs : schema.IsSound) {p : Principal}
    {ref : Reference} {projection : Projection} {clause : Option Condition} {plan : Plan}
    (h : (Statement.get ref projection clause).resolve schema p = .ok plan) :
    ∃ e ∈ schema.entities, e.name = ref.entity ∧ ∃ filter,
      plan = ⟨schema.fingerprint, p, .get ⟨e.name, filter⟩ (projection.names e)⟩ ∧
      ∀ row : Row, row.Faithful → (filter.selects row = true ↔ ref.Means p e clause row) := by
  obtain ⟨s, hscope, h⟩ := bind_eq_ok_iff.1 h
  obtain ⟨rfl, rfl, -, -⟩ := (Scope.ofPrincipal_eq_ok_iff hs).1 hscope
  obtain ⟨op, hop, h⟩ := bind_eq_ok_iff.1 h
  obtain ⟨⟨e, target⟩, hrows, hop⟩ := bind_eq_ok_iff.1 hop
  obtain ⟨names, hnames, hop⟩ := bind_eq_ok_iff.1 hop
  obtain ⟨hmem, hname, filter, rfl, hfilter⟩ := Scope.exists_of_rows hs hrows
  refine ⟨e, hmem, hname, filter, ?_, hfilter⟩
  rw [← Except.ok.inj h, ← Except.ok.inj hop, Scope.projection_eq_ok hnames]

namespace Service

variable {s : Service} {m : Memory} {p : Principal} {ref : Reference} {projection : Projection}
  {clause : Option Condition} {plan : Plan}

/-- **GET returns the rows that the statement means**: the rows of its entity that its selector names
and its clause keeps, each once and in the order of the bytes of their identities, with the fields
asked for. -/
theorem runStatement_get (hschema : s.schema.validate = .ok ()) (hm : m.Built s.schema)
    (hplan : (Statement.get ref projection clause).resolve s.schema p = .ok plan)
    (now : Instant) :
    ∃ e ∈ s.schema.entities, e.name = ref.entity ∧ ∃ rows : List Row,
      (m.attempt Watch.never () (s.runStatement now p (.get ref projection clause)).run).1 =
        .ok (.records (rows.map fun row =>
          ⟨e.name, row.id, (projection.names e).map fun name => (name, row.value name)⟩)) ∧
      rows.Pairwise (fun row row' => ofString row.id < ofString row'.id) ∧
      ∀ row, row ∈ rows ↔
        m.published.row? ⟨e.name, row.id⟩ = some row ∧ ref.Means p e clause row := by
  obtain ⟨e, he, hname, filter, rfl, hfilter⟩ :=
    Statement.resolve_get (Schema.isSound_of_validate hschema) hplan
  have hg := hm.faithful
  obtain ⟨rows, hrows⟩ := (hm.houses e he).exists_find filter
  refine ⟨e, he, hname, rows, ?_, ?_, ?_⟩
  · have hget : m.published.get ⟨e.name, filter⟩ (projection.names e) =
        .ok (.records (rows.map (Evaluation.project e.name (projection.names e)))) :=
      bind_eq_ok_iff.2 ⟨rows, Graph.rowsOf_eq_ok_iff.2 hrows, rfl⟩
    have heffect : Plan.effect now
        ⟨s.schema.fingerprint, p, .get ⟨e.name, filter⟩ (projection.names e)⟩ p m =
          .ok (.records (rows.map (Evaluation.project e.name (projection.names e))),
            m.published) :=
      Plan.effect_eq_ok_iff.2 ⟨rfl, map_eq_ok_iff.2 ⟨_, hget, rfl⟩⟩
    have hrun : s.runStatement now p (.get ref projection clause) = s.runPlanned now p .compile
        (.ok ⟨s.schema.fingerprint, p, .get ⟨e.name, filter⟩ (projection.names e)⟩) := by
      rw [runStatement, planStatement, hplan]
      rfl
    rw [hrun, attempt_runPlanned rfl, (Plan.attempt_never_of_ok heffect).1]
    rfl
  · exact (hg.keyed.pairwise_find hrows).imp ofString_lt_of_compare
  · intro row
    rw [hg.mem_find_iff hrows]
    exact and_congr_right fun hrow => hfilter row (hg _ row hrow).2

/-- A document without an owner is not alice's. -/
theorem runStatement_get_missing :
    let alice : Principal := ⟨"User", "alice"⟩
    let statement := Statement.get ⟨"Resource", .all⟩ (.fields ["id"])
      (some (.compare "owner" .different .self))
    ∃ (m : Memory) (now : Instant) (rows : List Row),
      (Memory.ofSchema .standard).insertRows "Resource" [.ofFields "doc" []] = .ok m ∧
      (m.attempt Watch.never () (runStatement ⟨.standard, none⟩ now alice statement).run).1 =
        .ok (.records (rows.map fun row => ⟨"Resource", row.id, [("id", row.value "id")]⟩)) ∧
      .ofFields "doc" [] ∈ rows := by
  intro alice statement
  let now : Instant := ⟨⟨2024, 1, 1, by decide, by decide⟩, 0, 0, by decide, by decide, by decide⟩
  obtain ⟨m, hm, hrow⟩ : ∃ m,
      (Memory.ofSchema .standard).insertRows "Resource" [.ofFields "doc" []] = .ok m ∧
      m.published.row? ⟨"Resource", "doc"⟩ = some (.ofFields "doc" []) :=
    ⟨_, rfl, by decide +kernel⟩
  obtain ⟨plan, hplan⟩ : ∃ plan, statement.resolve .standard alice = .ok plan := ⟨_, rfl⟩
  have hbuilt : m.Built .standard := @Memory.Built.inserted _ _ _ _ [("doc", [])] .start hm
  obtain ⟨e, he, hname, rows, hrun, -, hrows⟩ :=
    runStatement_get (s := ⟨.standard, none⟩) Schema.validate_standard hbuilt hplan now
  have hmeans : Reference.Means alice e (some (.compare "owner" .different .self))
      ⟨"Resource", .all⟩ (.ofFields "doc" []) := by
    have howner : (⟨"owner", .string, false⟩ : Field) ∈ e.fields := by
      rcases List.mem_cons.1 he with rfl | he
      · exact absurd hname (by decide)
      · obtain rfl := List.mem_singleton.1 he
        decide
    refine ⟨.all, fun c hc => ?_⟩
    obtain rfl := Option.some.inj hc
    exact .different howner .self rfl
  rw [hname] at hrun hrows
  exact ⟨m, now, rows, hm, hrun, (hrows _).2 ⟨hrow, hmeans⟩⟩

end Service

end Warrant
