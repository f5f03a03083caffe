import Mathlib.Data.List.Forall2
import Warrant.Proofs.Store.Runs

/-!
# Missing fields and nulls

A field of a row may hold a null, or the row may lack it. Nobody can tell the two apart: a missing
field reads as null, and a null is no owner. So take two stores of which the second is the first
without some of its nulls, the copies of identities apart. Whatever is run on them, all results are
the same, and the second store stays the first one without some of its nulls.

## Main definitions

- `Row.LosesNulls`, `Graph.LosesNulls`, `Memory.LosesNulls` — rows, graphs and stores without some
  of their nulls
- `SortedMap.Related` — maps with the same keys and related values
- `Agree` — computations fail alike, or succeed with related results

## Main statements

- `Filter.selects_congr` — a filter sees the values of fields and nothing else
- `Plan.effect_agree` — one plan
- `Memory.LosesNulls.performAll_eq` — any number of plans
-/

namespace Warrant

/-! ## Results -/

/-- **Two computations agree**: they fail alike, or succeed with related results. -/
inductive Agree {ε α β : Type} (R : α → β → Prop) : Except ε α → Except ε β → Prop
  | ok {a : α} {b : β} (h : R a b) : Agree R (.ok a) (.ok b)
  | error (e : ε) : Agree R (.error e) (.error e)

namespace Agree

variable {ε ε' α β γ δ : Type} {R : α → β → Prop} {S : γ → δ → Prop} {x : Except ε α}
  {x' : Except ε β}

theorem refl (x : Except ε α) : Agree Eq x x := by
  cases x with
  | ok a => exact .ok rfl
  | error e => exact .error e

theorem bind {f : α → Except ε γ} {f' : β → Except ε δ} (h : Agree R x x')
    (hf : ∀ a b, R a b → Agree S (f a) (f' b)) : Agree S (x >>= f) (x' >>= f') := by
  cases h with
  | ok h => exact hf _ _ h
  | error e => exact .error e

/-- What makes no difference between related results comes out the same. -/
theorem bind_eq {f : α → Except ε γ} {f' : β → Except ε γ} (h : Agree R x x')
    (hf : ∀ a b, R a b → f' b = f a) : x' >>= f' = x >>= f := by
  cases h with
  | ok h => exact hf _ _ h
  | error e => rfl

theorem map {f : α → γ} {f' : β → δ} (h : Agree R x x') (hf : ∀ a b, R a b → S (f a) (f' b)) :
    Agree S (x.map f) (x'.map f') := by
  cases h with
  | ok h => exact .ok (hf _ _ h)
  | error e => exact .error e

theorem mapError (h : Agree R x x') (f : ε → ε') : Agree R (x.mapError f) (x'.mapError f) := by
  cases h with
  | ok h => exact .ok h
  | error e => exact .error (f e)

end Agree

/-! ## Maps -/

namespace SortedMap

variable {κ ν ω : Type} [Ord κ] {R : ν → ω → Prop}

/-- Two bindings have the same key and related values. -/
def RelatedBinding (R : ν → ω → Prop) (a : κ × ν) (b : κ × ω) : Prop :=
  a.1 = b.1 ∧ R a.2 b.2

/-- **Two maps have the same keys and related values.** -/
def Related (R : ν → ω → Prop) (m : SortedMap κ ν) (n : SortedMap κ ω) : Prop :=
  List.Forall₂ (RelatedBinding R) m.toList n.toList

theorem rel_lookup {l : List (κ × ν)} {l' : List (κ × ω)}
    (h : List.Forall₂ (RelatedBinding R) l l') (k : κ) :
    Option.Rel R (lookup k l) (lookup k l') := by
  induction h with
  | nil => exact .none
  | @cons a b rest rest' hab _ ih =>
    obtain ⟨key, v⟩ := a
    obtain ⟨key', w⟩ := b
    obtain ⟨rfl, hvw⟩ : key = key' ∧ R v w := hab
    unfold lookup
    split
    · exact .some hvw
    · exact ih

theorem forall₂_place {l : List (κ × ν)} {l' : List (κ × ω)}
    (h : List.Forall₂ (RelatedBinding R) l l') (k : κ) {v : ν} {w : ω} (hvw : R v w) :
    List.Forall₂ (RelatedBinding R) (place k v l) (place k w l') := by
  induction h with
  | nil => exact .cons ⟨rfl, hvw⟩ .nil
  | @cons a b rest rest' hab hrest ih =>
    obtain ⟨key, v'⟩ := a
    obtain ⟨key', w'⟩ := b
    obtain ⟨rfl, hvw'⟩ : key = key' ∧ R v' w' := hab
    unfold place
    cases compare k key with
    | lt => exact .cons ⟨rfl, hvw⟩ (.cons ⟨rfl, hvw'⟩ hrest)
    | eq => exact .cons ⟨rfl, hvw⟩ hrest
    | gt => exact .cons ⟨rfl, hvw'⟩ ih

variable {m : SortedMap κ ν} {n : SortedMap κ ω}

theorem Related.get? (h : Related R m n) (k : κ) : Option.Rel R (m.get? k) (n.get? k) :=
  rel_lookup h k

theorem Related.values (h : Related R m n) : List.Forall₂ R m.values n.values := by
  unfold SortedMap.values
  rw [List.forall₂_map_left_iff, List.forall₂_map_right_iff]
  exact h.imp fun _ _ hab => hab.2

theorem Related.filter (h : Related R m n) (p : κ → Bool) :
    Related R (m.filter fun k _ => p k) (n.filter fun k _ => p k) :=
  List.rel_filter (fun _ _ hab => by simp only [hab.1]) h

theorem Related.insert [Std.TransOrd κ] (h : Related R m n) (k : κ) {v : ν} {w : ω}
    (hvw : R v w) : Related R (m.insert k v) (n.insert k w) :=
  forall₂_place h k hvw

theorem Related.foldl_erase [Std.TransOrd κ] (h : Related R m n) (ks : List κ) :
    Related R (ks.foldl (fun m k => m.erase k) m) (ks.foldl (fun n k => n.erase k) n) := by
  induction ks generalizing m n with
  | nil => exact h
  | cons k rest ih => exact ih (h.filter fun a => compare k a != .eq)

end SortedMap

/-! ## Rows -/

/-- **A row loses some nulls**: another row has its identity and its fields, but for fields that hold
    a null, some of which may be missing. -/
structure Row.LosesNulls (row row' : Row) : Prop where
  id : row'.id = row.id
  fields : ∀ name, row'.get? name = row.get? name ∨
    name ≠ Row.idField ∧ row.get? name = some .null ∧ row'.get? name = none

namespace Row.LosesNulls

variable {row row' : Row}

theorem value (h : row.LosesNulls row') (name : String) : row'.value name = row.value name := by
  unfold Row.value
  rcases h.fields name with h | ⟨-, h, h'⟩
  · rw [h]
  · rw [h, h']
    rfl

theorem text? (h : row.LosesNulls row') (name : String) : row'.text? name = row.text? name := by
  unfold Row.text?
  rcases h.fields name with h | ⟨-, h, h'⟩
  · rw [h]
  · rw [h, h']
    rfl

theorem set (h : row.LosesNulls row') (name : String) (v : Value) :
    (row.set name v).LosesNulls (row'.set name v) := by
  refine ⟨by simp [h.id], fun name' => ?_⟩
  rw [get?_set, get?_set]
  split
  · exact .inl rfl
  · exact h.fields name'

theorem setAll (h : row.LosesNulls row') (values : List (String × Value)) :
    (row.setAll values).LosesNulls (row'.setAll values) := by
  induction values generalizing row row' with
  | nil => exact h
  | cons b rest ih => exact ih (h.set b.1 b.2)

end Row.LosesNulls

namespace Filter

variable {row row' : Row}

mutual

/-- **A filter sees the values of fields and nothing else.** -/
theorem selects_congr (h : ∀ name, row'.value name = row.value name) :
    ∀ filter : Filter, filter.selects row' = filter.selects row
  | .all => rfl
  | .compare field how value => by rw [selects, selects, h]
  | .every parts => everySelects_congr h parts
  | .any parts => anySelects_congr h parts

theorem everySelects_congr (h : ∀ name, row'.value name = row.value name) :
    ∀ parts : List Filter, everySelects row' parts = everySelects row parts
  | [] => rfl
  | f :: rest => by rw [everySelects, everySelects, selects_congr h f, everySelects_congr h rest]

theorem anySelects_congr (h : ∀ name, row'.value name = row.value name) :
    ∀ parts : List Filter, anySelects row' parts = anySelects row parts
  | [] => rfl
  | f :: rest => by rw [anySelects, anySelects, selects_congr h f, anySelects_congr h rest]

end

/-- A filter selects the same rows. -/
theorem forall₂_filter {rows rows' : List Row} (h : List.Forall₂ Row.LosesNulls rows rows')
    (filter : Filter) :
    List.Forall₂ Row.LosesNulls (rows.filter filter.selects) (rows'.filter filter.selects) :=
  List.rel_filter (fun _ _ hrow => by simp only [selects_congr hrow.value]) h

end Filter

/-! ## Graphs -/

/-- **A graph loses some nulls**: another graph has its tables, but that rows have lost some nulls,
    and its edges. -/
structure Graph.LosesNulls (g g' : Graph) : Prop where
  tables : SortedMap.Related (SortedMap.Related Row.LosesNulls) g.tables g'.tables
  edges : g'.edges = g.edges

namespace Graph.LosesNulls

variable {g g' : Graph} {rows rows' : List Row} {row row' : Row} {p : Node} {action : Verb}
  {entity : String} {values : List (String × Value)}

theorem table (h : g.LosesNulls g') (entity : String) :
    Agree (SortedMap.Related Row.LosesNulls) (g.table entity) (g'.table entity) := by
  have ht := h.tables.get? entity
  unfold Graph.table
  generalize g.tables.get? entity = found, g'.tables.get? entity = found' at ht ⊢
  cases ht with
  | none => exact .error _
  | some ht => exact .ok ht

theorem withTable (h : g.LosesNulls g') (entity : String) {t t' : Table}
    (ht : SortedMap.Related Row.LosesNulls t t') :
    (g.withTable entity t).LosesNulls (g'.withTable entity t') :=
  ⟨h.tables.insert entity ht, h.edges⟩

theorem find (h : g.LosesNulls g') (entity : String) (filter : Filter) :
    Agree (List.Forall₂ Row.LosesNulls) (g.find entity filter) (g'.find entity filter) := by
  refine (h.table entity).bind fun t t' ht => ?_
  cases filter.pinnedId? with
  | none => exact .ok (filter.forall₂_filter ht.values)
  | some id =>
    have hrow := ht.get? id
    refine .ok ?_
    generalize t.get? id = found, t'.get? id = found' at hrow ⊢
    cases hrow with
    | none => exact .nil
    | some hrow => exact .cons hrow .nil

theorem rowsOf (h : g.LosesNulls g') (target : Target) :
    Agree (List.Forall₂ Row.LosesNulls) (g.rowsOf target) (g'.rowsOf target) :=
  (h.find target.entity target.filter).mapError RunError.store

theorem findEdge (h : g.LosesNulls g') (key : EdgeKey) : g'.findEdge key = g.findEdge key := by
  rw [Graph.findEdge, Graph.findEdge, h.edges]

/-- A verdict is the same: an edge is there or not, and a null names no owner. -/
theorem verdict (h : g.LosesNulls g') (hrow : row.LosesNulls row') (subject : Node)
    (permission : String) (resource : Node) (ownerField : String) :
    g'.verdict subject permission resource row' ownerField =
      g.verdict subject permission resource row ownerField := by
  simp only [Graph.verdict, h.findEdge, hrow.text?]

theorem resolve (h : g.LosesNulls g') (target : Target) :
    Agree (fun r r' => r'.1 = r.1 ∧ r.2.LosesNulls r'.2) (g.resolve target) (g'.resolve target) := by
  refine (h.rowsOf target).bind fun rows rows' hrows => ?_
  cases hrows with
  | nil => exact .error _
  | cons hrow hrest =>
    cases hrest with
    | nil => exact .ok ⟨by rw [hrow.id], hrow⟩
    | cons hrow' hrest =>
      have hlength := hrest.length_eq
      simp only [List.length_cons, hlength]
      exact .error _

theorem authorize (h : g.LosesNulls g') (hrow : row.LosesNulls row') (p : Node) (action : Verb)
    (resource : Node) (ownerField : String) :
    g'.authorize p action resource row' ownerField = g.authorize p action resource row ownerField := by
  rw [Graph.authorize, Graph.authorize, h.verdict hrow]

theorem guardRows (h : g.LosesNulls g') (hrows : List.Forall₂ Row.LosesNulls rows rows') (p : Node)
    (action : Verb) (entity ownerField : String) :
    g'.guardRows p action entity ownerField rows' = g.guardRows p action entity ownerField rows := by
  induction hrows with
  | nil => rfl
  | cons hrow _ ih => rw [Graph.guardRows, Graph.guardRows, h.authorize hrow, hrow.id, ih]

theorem delegate (h : g.LosesNulls g') (p : Node) (action : Verb) (access : Access) :
    g'.delegate p action access = g.delegate p action access := by
  refine (h.resolve access.subject).bind_eq ?_
  rintro ⟨subject, _⟩ ⟨_, _⟩ ⟨rfl, -⟩
  refine (h.resolve access.resource).bind_eq ?_
  rintro ⟨resource, row⟩ ⟨_, row'⟩ ⟨rfl, hrow⟩
  dsimp only at hrow ⊢
  rw [h.authorize hrow]

/-! ## Operations -/

theorem get (h : g.LosesNulls g') (target : Target) (projection : List String) :
    g'.get target projection = g.get target projection := by
  refine (h.rowsOf target).bind_eq fun rows rows' hrows => ?_
  have hrecords : rows'.map (Evaluation.project target.entity projection) =
      rows.map (Evaluation.project target.entity projection) := by
    induction hrows with
    | nil => rfl
    | cons hrow _ ih =>
      simp only [List.map_cons, ih, Evaluation.project, hrow.id, hrow.value]
  rw [hrecords]

theorem check (h : g.LosesNulls g') (access : Access) : g'.check access = g.check access := by
  refine (h.resolve access.subject).bind_eq ?_
  rintro ⟨subject, _⟩ ⟨_, _⟩ ⟨rfl, -⟩
  refine (h.resolve access.resource).bind_eq ?_
  rintro ⟨resource, row⟩ ⟨_, row'⟩ ⟨rfl, hrow⟩
  dsimp only at hrow ⊢
  rw [h.verdict hrow]

/-- The results of a change: the same outcomes, and graphs of which the second is the first without
    some nulls. -/
abbrev Alike {α : Type} (r r' : α × Graph) : Prop :=
  r'.1 = r.1 ∧ r.2.LosesNulls r'.2

theorem upsertEdge (h : g.LosesNulls g') (e : Edge) : Alike (g.upsertEdge e) (g'.upsertEdge e) := by
  simp only [Graph.upsertEdge, h.edges]
  exact ⟨rfl, h.tables, rfl⟩

theorem deleteEdge (h : g.LosesNulls g') (key : EdgeKey) :
    Alike (g.deleteEdge key) (g'.deleteEdge key) := by
  simp only [Graph.deleteEdge, h.edges]
  exact ⟨rfl, h.tables, rfl⟩

theorem grant (h : g.LosesNulls g') (now : Instant) (p : Node) (access : Access) :
    Agree Alike (Graph.grant now p access g) (Graph.grant now p access g') := by
  unfold Graph.grant
  rw [h.delegate]
  refine (Agree.refl _).bind ?_
  rintro key _ rfl
  obtain ⟨hcreated, hrest⟩ := h.upsertEdge (newEdge now p key)
  exact .ok ⟨congrArg (Outcome.granted _) hcreated, hrest⟩

theorem revoke (h : g.LosesNulls g') (p : Node) (access : Access) :
    Agree Alike (Graph.revoke p access g) (Graph.revoke p access g') := by
  unfold Graph.revoke
  rw [h.delegate]
  refine (Agree.refl _).bind ?_
  rintro key _ rfl
  obtain ⟨hremoved, hrest⟩ := h.deleteEdge key
  exact .ok ⟨congrArg (Outcome.revoked key) hremoved, hrest⟩

theorem updateFields (h : g.LosesNulls g') (entity id : String) (values : List (String × Value)) :
    Agree Graph.LosesNulls (g.updateFields entity id values)
      (g'.updateFields entity id values) := by
  refine (h.table entity).bind fun t t' ht => ?_
  have hrow := ht.get? id
  generalize t.get? id = found, t'.get? id = found' at hrow ⊢
  cases hrow with
  | none => exact .error _
  | some hrow => exact .ok (h.withTable entity (ht.insert id (hrow.setAll values)))

theorem updateRows (h : g.LosesNulls g') (hrows : List.Forall₂ Row.LosesNulls rows rows')
    (entity : String) (values : List (String × Value)) :
    Agree Graph.LosesNulls (Graph.updateRows entity values rows g)
      (Graph.updateRows entity values rows' g') := by
  induction hrows generalizing g g' with
  | nil => exact .ok h
  | cons hrow _ ih =>
    rw [Graph.updateRows, Graph.updateRows, hrow.id]
    exact ((h.updateFields entity _ values).mapError RunError.store).bind fun _ _ h => ih h

theorem update (h : g.LosesNulls g') (p : Node) (target : Target) (assignments : List Assignment)
    (owner : Option String) :
    Agree Alike (Graph.update p target assignments owner g)
      (Graph.update p target assignments owner g') := by
  refine (h.rowsOf target).bind fun rows rows' hrows => ?_
  have hwrite : Agree Alike
      (Graph.updateRows target.entity (assignments.map fun a => (a.field, a.value)) rows g >>=
        fun g => .ok (Outcome.updated target.entity rows.length, g))
      (Graph.updateRows target.entity (assignments.map fun a => (a.field, a.value)) rows' g' >>=
        fun g => .ok (Outcome.updated target.entity rows'.length, g)) := by
    refine (h.updateRows hrows _ _).bind fun _ _ h => .ok ⟨?_, h⟩
    rw [hrows.length_eq]
  cases owner with
  | none => exact hwrite
  | some field =>
    dsimp only
    rw [h.guardRows hrows]
    exact (Agree.refl _).bind fun _ _ _ => hwrite

theorem deleteRows (h : g.LosesNulls g') (entity : String) (filter : Filter)
    (cascade : List CascadeRule) :
    Agree Alike (g.deleteRows entity filter cascade) (g'.deleteRows entity filter cascade) := by
  refine (h.table entity).bind fun t t' ht => ?_
  have hids : (t'.values.filter filter.selects).map Row.id =
      (t.values.filter filter.selects).map Row.id := by
    have hfound := filter.forall₂_filter ht.values
    generalize t.values.filter filter.selects = rows,
      t'.values.filter filter.selects = rows' at hfound
    induction hfound with
    | nil => rfl
    | cons hrow _ ih => rw [List.map_cons, List.map_cons, hrow.id, ih]
  dsimp only
  rw [hids, h.edges]
  exact .ok ⟨rfl, h.tables.insert entity (ht.foldl_erase _), rfl⟩

theorem delete (h : g.LosesNulls g') (p : Node) (target : Target) (kind : EntityKind)
    (owner : Option String) :
    Agree Alike (Graph.delete p target kind owner g) (Graph.delete p target kind owner g') := by
  have hdelete : Agree Alike
      ((g.deleteRows target.entity target.filter (Evaluation.cascade kind)).mapError
        RunError.store >>= fun r => .ok (Outcome.deleted target.entity r.1, r.2))
      ((g'.deleteRows target.entity target.filter (Evaluation.cascade kind)).mapError
        RunError.store >>= fun r => .ok (Outcome.deleted target.entity r.1, r.2)) := by
    refine ((h.deleteRows _ _ _).mapError RunError.store).bind fun r r' hr => ?_
    exact .ok ⟨congrArg (Outcome.deleted target.entity) hr.1, hr.2⟩
  cases owner with
  | none => exact hdelete
  | some field =>
    refine (h.rowsOf target).bind fun rows rows' hrows => ?_
    rw [h.guardRows hrows]
    exact (Agree.refl _).bind fun _ _ _ => hdelete

end Graph.LosesNulls

/-! ## Stores -/

/-- **A store loses some nulls**: another store publishes a graph that is without them. -/
structure Memory.LosesNulls (m m' : Memory) : Prop where
  published : m.published.LosesNulls m'.published
  busy : m'.busy = m.busy

open Graph.LosesNulls (Alike)

variable {m m' : Memory}

theorem Memory.LosesNulls.transact {α : Type} (h : m.LosesNulls m')
    {change : Graph → Except RunError (α × Graph)}
    (hchange : Agree Alike (change m.published) (change m'.published)) :
    Agree Alike (m.transact change) (m'.transact change) := by
  rw [Memory.transact, Memory.transact, h.busy]
  split
  · exact .error _
  · exact hchange

theorem Operation.effect_agree (h : m.LosesNulls m') (now : Instant) (p : Node) (op : Operation) :
    Agree Alike (op.effect now p m) (op.effect now p m') := by
  have hg := h.published
  cases op with
  | get target projection =>
    rw [effect, effect, hg.get]
    exact (Agree.refl _).map fun _ _ heq => ⟨heq.symm, hg⟩
  | check access =>
    rw [effect, effect, hg.check]
    exact (Agree.refl _).map fun _ _ heq => ⟨heq.symm, hg⟩
  | grant access => exact h.transact (hg.grant now p access)
  | revoke access => exact h.transact (hg.revoke p access)
  | update target assignments owner =>
    rw [effect, effect]
    exact (Agree.refl _).bind fun _ _ _ => h.transact (hg.update p target assignments owner)
  | delete target kind owner => exact h.transact (hg.delete p target kind owner)

/-- **One plan** on two stores of which the second is the first without some nulls. -/
theorem Plan.effect_agree (h : m.LosesNulls m') (now : Instant) (plan : Plan) (caller : Principal) :
    Agree Alike (plan.effect now caller m) (plan.effect now caller m') := by
  rw [effect, effect]
  split
  · exact .error _
  · exact Operation.effect_agree h now caller.node plan.operation

namespace Memory.LosesNulls

theorem perform (h : m.LosesNulls m') (now : Instant) (job : Job) :
    (m'.perform now job).1 = (m.perform now job).1 ∧
      (m.perform now job).2.LosesNulls (m'.perform now job).2 := by
  have hagree := job.plan.effect_agree h now job.caller
  generalize hx : job.plan.effect now job.caller m = x,
    hx' : job.plan.effect now job.caller m' = x' at hagree
  cases hagree with
  | error e =>
    rw [perform_of_error hx, perform_of_error hx']
    exact ⟨rfl, h⟩
  | @ok r r' hr =>
    obtain ⟨o, g⟩ := r
    obtain ⟨o', g'⟩ := r'
    obtain ⟨rfl, hg⟩ : o' = o ∧ g.LosesNulls g' := hr
    rw [perform_of_ok hx, perform_of_ok hx']
    exact ⟨rfl, hg, h.busy⟩

/-- **A null and a missing field are never told apart.** If a store is another one without some of its
    nulls, then plans that are run on both, one after another and at the same times, give the same
    results, and in the end it still is the other one without some of its nulls. -/
theorem performAll_eq (h : m.LosesNulls m') (timed : List (Instant × Job)) :
    (m'.performAll timed).1 = (m.performAll timed).1 ∧
      (m.performAll timed).2.LosesNulls (m'.performAll timed).2 := by
  induction timed generalizing m m' with
  | nil => exact ⟨rfl, h⟩
  | cons t rest ih =>
    obtain ⟨hfirst, h⟩ := h.perform t.1 t.2
    obtain ⟨hrest, h⟩ := ih h
    exact ⟨congrArg₂ List.cons hfirst hrest, h⟩

/-- One document has no owner, and of the other one nothing is said about that. For alice there is
    no difference: she finds either by asking for what nobody owns, and may not delete it. -/
theorem performAll_unowned :
    let alice : Principal := ⟨"User", "alice"⟩
    let unowned : Target := ⟨"Resource", .compare "owner" .equal .null⟩
    ∃ (m m' : Memory) (now : Instant),
      (Memory.ofSchema .standard).insertRows "Resource"
        [.ofFields "doc" [("owner", .null)]] = .ok m ∧
      (Memory.ofSchema .standard).insertRows "Resource" [.new "doc"] = .ok m' ∧ m ≠ m' ∧
      let timed : List (Instant × Job) := [
        (now, ⟨alice, ⟨0, alice, .get unowned ["owner"]⟩⟩),
        (now, ⟨alice, ⟨0, alice, .delete unowned .resource (some "owner")⟩⟩)]
      (m.performAll timed).1.map Except.isOk = [true, false] ∧
        (m'.performAll timed).1 = (m.performAll timed).1 ∧
        (m.performAll timed).2.LosesNulls (m'.performAll timed).2 := by
  intro alice unowned
  let now : Instant := ⟨⟨2024, 1, 1, by decide, by decide⟩, 0, 0, by decide, by decide, by decide⟩
  let timed : List (Instant × Job) := [
    (now, ⟨alice, ⟨0, alice, .get unowned ["owner"]⟩⟩),
    (now, ⟨alice, ⟨0, alice, .delete unowned .resource (some "owner")⟩⟩)]
  have hrow : (Row.ofFields "doc" [("owner", .null)]).LosesNulls (.new "doc") := by
    refine ⟨rfl, fun name => ?_⟩
    have hget : (Row.ofFields "doc" [("owner", .null)]).get? name =
        if "owner" = name ∧ "owner" ≠ Row.idField then some .null else (Row.new "doc").get? name :=
      Row.get?_set (.new "doc") "owner" .null name
    rw [hget]
    split
    · next h =>
      obtain ⟨rfl, hid⟩ := h
      exact .inr ⟨hid, rfl, by decide⟩
    · exact .inl rfl
  obtain ⟨m, m', hm, hm', hne, hfirst, h⟩ : ∃ m m' : Memory,
      (Memory.ofSchema .standard).insertRows "Resource"
        [.ofFields "doc" [("owner", .null)]] = .ok m ∧
      (Memory.ofSchema .standard).insertRows "Resource" [.new "doc"] = .ok m' ∧ m ≠ m' ∧
      (m.performAll timed).1.map Except.isOk = [true, false] ∧ m.LosesNulls m' :=
    ⟨_, _, rfl, rfl, by decide +kernel, by decide +kernel,
      ⟨.cons ⟨rfl, .cons ⟨rfl, hrow⟩ .nil⟩ (.cons ⟨rfl, .nil⟩ .nil), rfl⟩, rfl⟩
  exact ⟨m, m', now, hm, hm', hne, hfirst, performAll_eq h timed⟩

end Memory.LosesNulls

end Warrant
