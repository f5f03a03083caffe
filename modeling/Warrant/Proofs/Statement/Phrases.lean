import Warrant.Proofs.Statement.Conditions

/-!
# The parser reads references, projections and settings

As for conditions, one direction says what the parser has moved over, and the other that it moves
over every phrase whose next token cannot go on with it.

## Main statements

- `Parser.isReference_of_yields`, `Parser.yields_of_isReference` — how rows are named
- `Parser.isProjection_of_yields`, `Parser.yields_of_isProjection` — the fields that GET returns
- `Parser.isSettings_of_yields`, `Parser.yields_of_isSettings` — the fields that UPDATE writes
-/

namespace Warrant.Parser

open Grammar

variable {p q : Parser} {ks : Phrase}

/-! ## References -/

/-- The selector that a token writes after a dot. -/
def dottedOf? : Token.Kind → Option Selector
  | .name id => some (.id id)
  | .sign .asterisk => some .wildcard
  | .keyword .selfWord => some .self
  | _ => none

theorem yields_dotted_iff {s : Selector} :
    Yields dotted p s q ↔ ∃ k, dottedOf? k = some s ∧ Moves p [k] q := by
  refine yields_table_iff .selector (congrArg (peek >>= ·) (funext fun k => ?_)) rfl
  cases k with
  | sign s => cases s <;> rfl
  | keyword k => cases k <;> rfl
  | _ => rfl

theorem isSelector_of_dottedOf? {k : Token.Kind} {s : Selector} (h : dottedOf? k = some s) :
    IsSelector [.sign .dot, k] s := by
  unfold dottedOf? at h
  split at h <;> cases h <;> constructor

theorem yields_selector_iff {s : Selector} :
    Yields selector p s q ↔
      (p.current.kind ≠ .sign .dot ∧ p.current.kind ≠ .sign .leftParen ∧ s = .all ∧ q = p) ∨
      (∃ k, dottedOf? k = some s ∧ Moves p [.sign .dot, k] q) ∨
      ∃ p₁ c p₂, Moves p [.sign .leftParen] p₁ ∧ Yields conditionList p₁ c p₂ ∧
        Moves p₂ [.sign .rightParen] q ∧ s = .conditions c := by
  unfold selector
  rw [yields_peek_bind_iff]
  constructor
  · intro h
    split at h
    · next hp =>
      obtain ⟨p₁, hdot, h⟩ := (yields_advance_bind_iff hp sign_ne_finish).1 h
      obtain ⟨k, hk, hmoves⟩ := yields_dotted_iff.1 h
      exact .inr (.inl ⟨k, hk, moves_cons_iff.2 ⟨p₁, hdot, hmoves⟩⟩)
    · next hp =>
      obtain ⟨p₁, hopen, h⟩ := (yields_advance_bind_iff hp sign_ne_finish).1 h
      obtain ⟨c, p₂, hc, h⟩ := yields_bind_iff.1 h
      obtain ⟨u, q', hclose, h⟩ := yields_bind_iff.1 h
      obtain ⟨rfl, rfl⟩ := yields_pure_iff.1 h
      exact .inr (.inr ⟨p₁, c, p₂, hopen, hc, yields_sign_iff.1 hclose, rfl⟩)
    · next hdot hopen =>
      obtain ⟨rfl, rfl⟩ := yields_pure_iff.1 h
      exact .inl ⟨hdot, hopen, rfl, rfl⟩
  · rintro (⟨hdot, hopen, rfl, rfl⟩ | ⟨k, hk, hmoves⟩ | ⟨p₁, c, p₂, hopen, hc, hclose, rfl⟩)
    · split
      · next hp => exact absurd hp hdot
      · next hp => exact absurd hp hopen
      · exact yields_pure_iff.2 ⟨rfl, rfl⟩
    · obtain ⟨p₁, hdot, hmoves⟩ := moves_cons_iff.1 hmoves
      rw [hdot.current]
      exact hdot.yields_advance_bind (yields_dotted_iff.2 ⟨k, hk, hmoves⟩)
    · rw [hopen.current]
      have hclose : Yields (sign .rightParen) p₂ () q := yields_sign_iff.2 hclose
      exact hopen.yields_advance_bind (hc.bind (hclose.bind yields_pure))

theorem isReference_of_yields {ref : Reference} (h : Yields reference p ref q) :
    ∃ ks, Moves p ks q ∧ IsReference ks ref := by
  obtain ⟨entity, p₁, hname, h⟩ := yields_bind_iff.1 h
  obtain ⟨selector, q', hselector, h⟩ := yields_bind_iff.1 h
  obtain ⟨rfl, rfl⟩ := yields_pure_iff.1 h
  have hentity := yields_name_iff.1 hname
  obtain ⟨ks, hmoves, hks⟩ : ∃ ks, Moves p₁ ks q ∧ IsSelector ks selector := by
    rcases yields_selector_iff.1 hselector with
      ⟨-, -, rfl, rfl⟩ | ⟨k, hk, hmoves⟩ | ⟨p₁, c, p₂, hopen, hc, hclose, rfl⟩
    · exact ⟨[], .stay _, .all⟩
    · exact ⟨_, hmoves, isSelector_of_dottedOf? hk⟩
    · obtain ⟨ks, hmoves, hlevel⟩ := isLevel_of_yields hc
      exact ⟨_, moves_cons_iff.2 ⟨p₁, hopen, moves_append_iff.2 ⟨p₂, hmoves, hclose⟩⟩,
        .conditions hlevel⟩
  exact ⟨_, moves_cons_iff.2 ⟨p₁, hentity, hmoves⟩, .mk entity hks⟩

theorem yields_of_isSelector {s : Selector} (h : IsSelector ks s) (hmoves : Moves p ks q)
    (hdot : q.current.kind ≠ .sign .dot) (hopen : q.current.kind ≠ .sign .leftParen) :
    Yields selector p s q := by
  rw [yields_selector_iff]
  cases h with
  | all =>
    obtain rfl := moves_nil_iff.1 hmoves
    exact .inl ⟨hdot, hopen, rfl, rfl⟩
  | id name => exact .inr (.inl ⟨.name name, rfl, hmoves⟩)
  | wildcard => exact .inr (.inl ⟨.sign .asterisk, rfl, hmoves⟩)
  | self => exact .inr (.inl ⟨.keyword .selfWord, rfl, hmoves⟩)
  | conditions h =>
    obtain ⟨p₁, hleft, hmoves⟩ := moves_cons_iff.1 hmoves
    obtain ⟨p₂, hks, hright⟩ := moves_append_iff.1 hmoves
    have hnext : connectiveOf? p₂.current.kind = none := by rw [hright.current]; rfl
    exact .inr (.inr ⟨p₁, _, p₂, hleft, yields_of_isLevel h hks hnext, hright, rfl⟩)

theorem yields_of_isReference {ref : Reference} (h : IsReference ks ref) (hmoves : Moves p ks q)
    (hdot : q.current.kind ≠ .sign .dot) (hopen : q.current.kind ≠ .sign .leftParen) :
    Yields reference p ref q := by
  obtain ⟨entity, h⟩ := h
  obtain ⟨p₁, hname, hks⟩ := moves_cons_iff.1 hmoves
  have hentity : Yields (name .entity) p entity p₁ := yields_name_iff.2 hname
  have hselector := yields_of_isSelector h hks hdot hopen
  exact hentity.bind (hselector.bind yields_pure)

theorem isSubject_of_yields {who : Subject} (h : Yields subject p who q) :
    ∃ ks, Moves p ks q ∧ IsSubject ks who := by
  unfold subject at h
  rw [yields_peek_bind_iff] at h
  split at h
  · next hp =>
    obtain ⟨p₁, hself, h⟩ := (yields_advance_bind_iff hp keyword_ne_finish).1 h
    obtain ⟨rfl, rfl⟩ := yields_pure_iff.1 h
    exact ⟨_, hself, .self⟩
  · obtain ⟨ref, q', href, h⟩ := yields_bind_iff.1 h
    obtain ⟨rfl, rfl⟩ := yields_pure_iff.1 h
    obtain ⟨ks, hmoves, hks⟩ := isReference_of_yields href
    exact ⟨ks, hmoves, .reference hks⟩
  · exact absurd h not_yields_unexpected

theorem yields_of_isSubject {who : Subject} (h : IsSubject ks who) (hmoves : Moves p ks q)
    (hdot : q.current.kind ≠ .sign .dot) (hopen : q.current.kind ≠ .sign .leftParen) :
    Yields subject p who q := by
  unfold subject
  rw [yields_peek_bind_iff]
  cases h with
  | self =>
    rw [hmoves.current]
    exact hmoves.yields_advance_bind yields_pure
  | reference h =>
    have hname : ∃ entity, p.current.kind = .name entity := by
      cases h
      exact ⟨_, hmoves.current⟩
    obtain ⟨entity, hentity⟩ := hname
    rw [hentity]
    exact (yields_of_isReference h hmoves hdot hopen).bind yields_pure

/-! ## Lists -/

/-- Things after the first, each after a comma: what names and settings have in common. -/
def moreOf {α : Type} (item : Action α) : Nat → Action (List α)
  | 0 => return []
  | bound + 1 => do
    if (← peek) = .sign .comma then do
      advance
      let x ← item
      return x :: (← moreOf item bound)
    else return []

theorem moreNames_eq (bound : Nat) : moreNames bound = moreOf (name .field) bound := by
  induction bound with
  | zero => rfl
  | succ bound ih => rw [moreNames, moreOf, ih]

theorem moreSettings_eq (bound : Nat) : moreSettings bound = moreOf setting bound := by
  induction bound with
  | zero => rfl
  | succ bound ih => rw [moreSettings, moreOf, ih]

theorem yields_moreOf_iff {α : Type} {item : Action α} {bound : Nat} {xs : List α} :
    Yields (moreOf item (bound + 1)) p xs q ↔
      (p.current.kind ≠ .sign .comma ∧ xs = [] ∧ q = p) ∨
      ∃ p₁ x p₂ others, Moves p [.sign .comma] p₁ ∧ Yields item p₁ x p₂ ∧
        Yields (moreOf item bound) p₂ others q ∧ xs = x :: others := by
  rw [moreOf, yields_peek_bind_iff]
  by_cases h : p.current.kind = .sign .comma
  · rw [if_pos h, yields_advance_bind_iff h sign_ne_finish]
    simp only [yields_bind_iff, yields_pure_iff, h, ne_eq, not_true_eq_false, false_and, false_or]
    constructor
    · rintro ⟨p₁, hcomma, x, p₂, hx, others, q', hothers, rfl, rfl⟩
      exact ⟨p₁, x, p₂, others, hcomma, hx, hothers, rfl⟩
    · rintro ⟨p₁, x, p₂, others, hcomma, hx, hothers, rfl⟩
      exact ⟨p₁, hcomma, x, p₂, hx, others, q, hothers, rfl, rfl⟩
  · rw [if_neg h]
    simp only [yields_pure_iff, ne_eq, h, not_false_eq_true, true_and]
    refine ⟨.inl, fun h' => h'.resolve_right ?_⟩
    rintro ⟨p₁, x, p₂, others, hcomma, -⟩
    exact h hcomma.current

/-- The things after the first one, each after a comma, when `R` says what one of them is. -/
inductive After {α : Type} (R : Phrase → α → Prop) : Phrase → List α → Prop
  | nil : After R [] []
  | cons {ks ls : Phrase} {x : α} {xs : List α} (first : R ks x) (others : After R ls xs) :
    After R (.sign .comma :: (ks ++ ls)) (x :: xs)

section

variable {α : Type} {R : Phrase → α → Prop} {item : Action α} {bound : Nat} {xs : List α}

/-- Whatever the bound is, the phrase that was moved over is one of things after commas. -/
theorem after_of_yields
    (hitem : ∀ {p x q}, Yields item p x q → ∃ ks, Moves p ks q ∧ R ks x)
    (h : Yields (moreOf item bound) p xs q) : ∃ ls, Moves p ls q ∧ After R ls xs := by
  induction bound generalizing p xs with
  | zero =>
    obtain ⟨rfl, rfl⟩ := yields_pure_iff.1 h
    exact ⟨[], .stay _, .nil⟩
  | succ bound ih =>
    rcases yields_moreOf_iff.1 h with ⟨-, rfl, rfl⟩ | ⟨p₁, x, p₂, others, hcomma, hx, hmore, rfl⟩
    · exact ⟨[], .stay _, .nil⟩
    · obtain ⟨ks, hks, hfirst⟩ := hitem hx
      obtain ⟨ls, hls, hothers⟩ := ih hmore
      have hmoves := moves_append_iff.2 ⟨p₂, hks, hls⟩
      exact ⟨_, moves_cons_iff.2 ⟨p₁, hcomma, hmoves⟩, .cons hfirst hothers⟩

/-- Things after commas are moved over to the last one when the bound is the length of the phrase
    at least. -/
theorem yields_of_after
    (hitem : ∀ {p ks x q}, R ks x → Moves p ks q → Yields item p x q) (h : After R ks xs)
    (hmoves : Moves p ks q) (hnext : q.current.kind ≠ .sign .comma) (hle : ks.length ≤ bound) :
    Yields (moreOf item bound) p xs q := by
  induction h generalizing bound p with
  | nil =>
    obtain rfl := moves_nil_iff.1 hmoves
    cases bound with
    | zero => exact yields_pure
    | succ bound => exact yields_moreOf_iff.2 (.inl ⟨hnext, rfl, rfl⟩)
  | @cons ks ls x xs first _ ih =>
    rw [List.length_cons, List.length_append] at hle
    obtain ⟨bound, rfl⟩ : ∃ b, bound = b + 1 := ⟨bound - 1, by omega⟩
    obtain ⟨p₁, hcomma, hmoves⟩ := moves_cons_iff.1 hmoves
    obtain ⟨p₂, hks, hls⟩ := moves_append_iff.1 hmoves
    have hothers := @ih p₂ bound hls (by omega)
    exact yields_moreOf_iff.2 (.inr ⟨p₁, x, p₂, xs, hcomma, hitem first hks, hothers, rfl⟩)

end

/-! ## Projections -/

def IsName (ks : Phrase) (s : String) : Prop :=
  ks = [.name s]

theorem isName_of_yields {s : String} (h : Yields (name .field) p s q) :
    ∃ ks, Moves p ks q ∧ IsName ks s :=
  ⟨_, yields_name_iff.1 h, rfl⟩

theorem yields_of_isName {s : String} (h : IsName ks s) (hmoves : Moves p ks q) :
    Yields (name .field) p s q := by
  subst h
  exact yields_name_iff.2 hmoves

/-- Names are one name, and others after commas. -/
theorem isNames_iff {names : List String} : IsNames ks names ↔
    ∃ s ls others, ks = .name s :: ls ∧ names = s :: others ∧ After IsName ls others := by
  constructor
  · intro h
    induction h with
    | one s => exact ⟨s, [], [], rfl, rfl, .nil⟩
    | cons s _ ih =>
      obtain ⟨t, ls, others, rfl, rfl, hothers⟩ := ih
      have ht : IsName [.name t] t := rfl
      exact ⟨s, _, _, rfl, rfl, .cons ht hothers⟩
  · rintro ⟨s, ls, others, rfl, rfl, hothers⟩
    induction hothers generalizing s with
    | nil => exact .one s
    | @cons _ ls t others first _ ih =>
      subst first
      exact .cons s (ih t)

theorem yields_projection_iff {projection' : Projection} :
    Yields projection p projection' q ↔
      (p.current.kind ≠ .sign .colon ∧ projection' = .all ∧ q = p) ∨
      (Moves p [.sign .colon, .sign .asterisk] q ∧ projection' = .all) ∨
      ∃ p₁ s p₂ others, Moves p [.sign .colon] p₁ ∧ Moves p₁ [.name s] p₂ ∧
        Yields (moreOf (name .field) (p₂.rest.length + 1)) p₂ others q ∧
        projection' = .fields (s :: others) := by
  unfold projection
  simp only [moreNames_eq]
  rw [yields_peek_bind_iff]
  by_cases hcolon : p.current.kind = .sign .colon
  · rw [if_pos hcolon, yields_advance_bind_iff hcolon sign_ne_finish]
    simp only [yields_peek_bind_iff, hcolon, ne_eq, not_true_eq_false, false_and, false_or]
    constructor
    · rintro ⟨p₁, hmoves, h⟩
      -- After the colon stands an asterisk, or one name at least.
      split at h
      · next hstar =>
        obtain ⟨p₂, hmoves', h⟩ := (yields_advance_bind_iff hstar sign_ne_finish).1 h
        obtain ⟨rfl, rfl⟩ := yields_pure_iff.1 h
        exact .inl ⟨moves_cons_iff.2 ⟨p₁, hmoves, hmoves'⟩, rfl⟩
      · obtain ⟨s, p₂, hs, h⟩ := yields_bind_iff.1 h
        rw [yields_get_bind_iff] at h
        obtain ⟨others, q', hothers, h⟩ := yields_bind_iff.1 h
        obtain ⟨rfl, rfl⟩ := yields_pure_iff.1 h
        exact .inr ⟨p₁, s, p₂, others, hmoves, yields_name_iff.1 hs, hothers, rfl⟩
    · rintro (⟨hmoves, rfl⟩ | ⟨p₁, s, p₂, others, hmoves, hs, hothers, rfl⟩)
      · obtain ⟨p₁, hmoves, hstar⟩ := moves_cons_iff.1 hmoves
        refine ⟨p₁, hmoves, ?_⟩
        rw [if_pos hstar.current]
        exact hstar.yields_advance_bind yields_pure
      · refine ⟨p₁, hmoves, ?_⟩
        have hstar : p₁.current.kind ≠ .sign .asterisk := hs.current_ne name_ne_sign
        have hs : Yields (name .fieldOrAsterisk) p₁ s p₂ := yields_name_iff.2 hs
        rw [if_neg hstar]
        exact hs.bind (yields_get_bind_iff.2 (hothers.bind yields_pure))
  · rw [if_neg hcolon]
    simp only [yields_pure_iff, ne_eq, hcolon, not_false_eq_true, true_and]
    refine ⟨.inl, fun h => h.resolve_right ?_⟩
    rintro (⟨hmoves, -⟩ | ⟨p₁, s, p₂, others, hmoves, -⟩)
    · exact hcolon hmoves.current
    · exact hcolon hmoves.current

theorem isProjection_of_yields {projection' : Projection} (h : Yields projection p projection' q) :
    ∃ ks, Moves p ks q ∧ IsProjection ks projection' := by
  rcases yields_projection_iff.1 h with
    ⟨-, rfl, rfl⟩ | ⟨hmoves, rfl⟩ | ⟨p₁, s, p₂, others, hcolon, hs, hothers, rfl⟩
  · exact ⟨[], .stay _, .none⟩
  · exact ⟨_, hmoves, .all⟩
  · obtain ⟨ls, hls, hafter⟩ := after_of_yields isName_of_yields hothers
    have hnames := isNames_iff.2 ⟨s, ls, others, rfl, rfl, hafter⟩
    have hmoves := moves_cons_iff.2 ⟨p₂, hs, hls⟩
    exact ⟨_, moves_cons_iff.2 ⟨p₁, hcolon, hmoves⟩, .fields hnames⟩

theorem yields_of_isProjection {projection' : Projection} (h : IsProjection ks projection')
    (hmoves : Moves p ks q) (hcolon : q.current.kind ≠ .sign .colon)
    (hcomma : q.current.kind ≠ .sign .comma) : Yields projection p projection' q := by
  rw [yields_projection_iff]
  cases h with
  | none =>
    obtain rfl := moves_nil_iff.1 hmoves
    exact .inl ⟨hcolon, rfl, rfl⟩
  | all => exact .inr (.inl ⟨hmoves, rfl⟩)
  | @fields ks names h =>
    obtain ⟨s, ls, others, rfl, rfl, hafter⟩ := isNames_iff.1 h
    obtain ⟨p₁, hmoves', h'⟩ := moves_cons_iff.1 hmoves
    obtain ⟨p₂, hs, hls⟩ := moves_cons_iff.1 h'
    have hothers := yields_of_after yields_of_isName hafter hls hcomma hls.length_le
    exact .inr (.inr ⟨p₁, s, p₂, others, hmoves', hs, hothers, rfl⟩)

/-- A projection starts with a colon, or is not written. -/
theorem current_ne_of_isProjection {projection' : Projection} {k : Token.Kind}
    (h : IsProjection ks projection') (hmoves : Moves p ks q) (hcolon : .sign .colon ≠ k)
    (hnext : q.current.kind ≠ k) : p.current.kind ≠ k := by
  cases h with
  | none =>
    obtain rfl := moves_nil_iff.1 hmoves
    exact hnext
  | all => exact hmoves.current_ne hcolon
  | fields _ => exact hmoves.current_ne hcolon

/-! ## Settings -/

def IsSetting (ks : Phrase) (s : Setting) : Prop :=
  ∃ value, IsLiteral value s.value ∧ ks = [.name s.field, .sign .equal, value]

theorem isSetting_of_yields {s : Setting} (h : Yields setting p s q) :
    ∃ ks, Moves p ks q ∧ IsSetting ks s := by
  unfold setting at h
  simp only [yields_bind_iff, yields_pure_iff, yields_name_iff, yields_sign_iff,
    yields_literal_iff] at h
  obtain ⟨field, p₁, hfield, u, p₂, hequal, v, p₃, ⟨value, hvalue, hmoves⟩, rfl, rfl⟩ := h
  have hmoves := moves_cons_iff.2 ⟨p₁, hfield, moves_cons_iff.2 ⟨p₂, hequal, hmoves⟩⟩
  exact ⟨_, hmoves, value, hvalue, rfl⟩

theorem yields_of_isSetting {s : Setting} (h : IsSetting ks s) (hmoves : Moves p ks q) :
    Yields setting p s q := by
  obtain ⟨value, hvalue, rfl⟩ := h
  obtain ⟨p₁, hfield, hmoves⟩ := moves_cons_iff.1 hmoves
  obtain ⟨p₂, hequal, hmoves⟩ := moves_cons_iff.1 hmoves
  have hfield : Yields (name .field) p s.field p₁ := yields_name_iff.2 hfield
  have hequal : Yields (sign .equal) p₁ () p₂ := yields_sign_iff.2 hequal
  have hv := yields_literal_iff.2 ⟨value, hvalue, hmoves⟩
  exact hfield.bind (hequal.bind (hv.bind yields_pure))

/-- Settings are one setting, and others after commas. -/
theorem isSettings_iff {all : List Setting} : IsSettings ks all ↔ ∃ s ks' ls others,
    IsSetting ks' s ∧ ks = ks' ++ ls ∧ all = s :: others ∧ After IsSetting ls others := by
  constructor
  · intro h
    induction h with
    | one field hvalue => exact ⟨_, _, [], [], ⟨_, hvalue, rfl⟩, rfl, rfl, .nil⟩
    | @cons value v _ _ field hvalue _ ih =>
      obtain ⟨t, ks', ls, others, ht, rfl, rfl, hothers⟩ := ih
      have hs : IsSetting [.name field, .sign .equal, value] ⟨field, v⟩ := ⟨value, hvalue, rfl⟩
      exact ⟨_, _, _, _, hs, rfl, rfl, .cons ht hothers⟩
  · rintro ⟨s, ks', ls, others, ⟨value, hvalue, rfl⟩, rfl, rfl, hothers⟩
    induction hothers generalizing s value with
    | nil => exact .one s.field hvalue
    | @cons _ ls t others first _ ih =>
      obtain ⟨value', hvalue', rfl⟩ := first
      exact .cons s.field hvalue (ih t value' hvalue')

theorem isSettings_of_yields {all : List Setting} (h : Yields settings p all q) :
    ∃ ks, Moves p ks q ∧ IsSettings ks all := by
  obtain ⟨first, p₁, hfirst, h⟩ := yields_bind_iff.1 h
  rw [yields_get_bind_iff, moreSettings_eq] at h
  obtain ⟨others, q', hothers, h⟩ := yields_bind_iff.1 h
  obtain ⟨rfl, rfl⟩ := yields_pure_iff.1 h
  obtain ⟨ks, hks, hsetting⟩ := isSetting_of_yields hfirst
  obtain ⟨ls, hls, hafter⟩ := after_of_yields isSetting_of_yields hothers
  have hall := isSettings_iff.2 ⟨first, ks, ls, others, hsetting, rfl, rfl, hafter⟩
  exact ⟨_, moves_append_iff.2 ⟨p₁, hks, hls⟩, hall⟩

theorem yields_of_isSettings {all : List Setting} (h : IsSettings ks all) (hmoves : Moves p ks q)
    (hnext : q.current.kind ≠ .sign .comma) : Yields settings p all q := by
  obtain ⟨first, ks', ls, others, hsetting, rfl, rfl, hafter⟩ := isSettings_iff.1 h
  obtain ⟨p₁, hks, hls⟩ := moves_append_iff.1 hmoves
  have hfirst := yields_of_isSetting hsetting hks
  have hothers := yields_of_after yields_of_isSetting hafter hls hnext hls.length_le
  refine hfirst.bind (yields_get_bind_iff.2 ?_)
  rw [moreSettings_eq]
  exact hothers.bind yields_pure

end Warrant.Parser
