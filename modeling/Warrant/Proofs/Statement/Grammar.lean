import Mathlib
import Warrant.Statement.Parser

/-!
# The grammar of statements

Which sequences of tokens are statements, and which statement each of them is. A sequence is said to
be a phrase of a kind by the rules below and by nothing else; no order of reading is part of them.

```
statement  := GET reference [":" projection] [WHERE level]
            | CHECK subject CAN name ON reference
            | GRANT name ON reference TO subject
            | REVOKE name ON reference FROM subject
            | UPDATE reference SET settings [WHERE level]
            | DELETE reference [WHERE level]
reference  := name ["." (name | "*" | SELF) | "(" level ")"]
subject    := SELF | reference
projection := "*" | name ("," name)*
settings   := name "=" literal ("," name "=" literal)*
level      := condition (AND condition)* | condition (OR condition)*
condition  := name ("=" | "!=") literal | "(" level ")"
literal    := string | number | true | false | SELF
```

## Main definitions

- `Grammar.IsLevel`, `Grammar.IsCondition` — conditions that one word joins, and a single one
- `Grammar.IsReference`, `Grammar.IsSubject` — how rows are named
- `Grammar.IsStatement` — whole statements
- `Token.Item.beforeFinish` — the tokens and faults that count
-/

namespace Warrant

/-- What tokens are, in the order of the text. -/
abbrev Phrase := List Token.Kind

namespace Grammar

inductive IsLiteral : Token.Kind → Literal → Prop
  | string (s : String) : IsLiteral (.string s) (.string s)
  | integer (i : Int64) : IsLiteral (.integer i) (.integer i)
  | float (x : Binary64) : IsLiteral (.float x) (.float x)
  | true : IsLiteral (.keyword .trueWord) (.boolean true)
  | false : IsLiteral (.keyword .falseWord) (.boolean false)
  | self : IsLiteral (.keyword .selfWord) .self

inductive IsComparison : Token.Kind → Comparison → Prop
  | equal : IsComparison (.sign .equal) .equal
  | different : IsComparison (.sign .different) .different

mutual

/-- **Conditions of one level.** One condition stands for itself; two or more are joined, all of
    them by AND or all of them by OR. -/
inductive IsLevel : Phrase → Condition → Prop
  | one {ks : Phrase} {c : Condition} (h : IsCondition ks c) : IsLevel ks c
  | every {ks ls : Phrase} {c : Condition} {cs : List Condition} (first : IsCondition ks c)
    (others : IsOthers .andWord ls cs) : IsLevel (ks ++ ls) (.every (c :: cs))
  | any {ks ls : Phrase} {c : Condition} {cs : List Condition} (first : IsCondition ks c)
    (others : IsOthers .orWord ls cs) : IsLevel (ks ++ ls) (.any (c :: cs))

/-- Conditions, one at least, each after the same word. -/
inductive IsOthers : Keyword → Phrase → List Condition → Prop
  | last {word : Keyword} {ks : Phrase} {c : Condition} (h : IsCondition ks c) :
    IsOthers word (.keyword word :: ks) [c]
  | cons {word : Keyword} {ks ls : Phrase} {c : Condition} {cs : List Condition}
    (h : IsCondition ks c) (others : IsOthers word ls cs) :
    IsOthers word (.keyword word :: (ks ++ ls)) (c :: cs)

/-- **A comparison, or a group in parentheses**, which stands for what is in it. -/
inductive IsCondition : Phrase → Condition → Prop
  | compare {sign value : Token.Kind} {how : Comparison} {v : Literal} (field : String)
    (hhow : IsComparison sign how) (hvalue : IsLiteral value v) :
    IsCondition [.name field, sign, value] (.compare field how v)
  | group {ks : Phrase} {c : Condition} (h : IsLevel ks c) :
    IsCondition (.sign .leftParen :: (ks ++ [.sign .rightParen])) c

end

/-- A WHERE clause, or nothing. -/
inductive IsClause : Phrase → Option Condition → Prop
  | none : IsClause [] none
  | some {ks : Phrase} {c : Condition} (h : IsLevel ks c) :
    IsClause (.keyword .whereWord :: ks) (some c)

/-- What follows the entity of a reference. -/
inductive IsSelector : Phrase → Selector → Prop
  | all : IsSelector [] .all
  | id (name : String) : IsSelector [.sign .dot, .name name] (.id name)
  | wildcard : IsSelector [.sign .dot, .sign .asterisk] .wildcard
  | self : IsSelector [.sign .dot, .keyword .selfWord] .self
  | conditions {ks : Phrase} {c : Condition} (h : IsLevel ks c) :
    IsSelector (.sign .leftParen :: (ks ++ [.sign .rightParen])) (.conditions c)

inductive IsReference : Phrase → Reference → Prop
  | mk {ks : Phrase} {selector : Selector} (entity : String) (h : IsSelector ks selector) :
    IsReference (.name entity :: ks) ⟨entity, selector⟩

inductive IsSubject : Phrase → Subject → Prop
  | self : IsSubject [.keyword .selfWord] .self
  | reference {ks : Phrase} {ref : Reference} (h : IsReference ks ref) :
    IsSubject ks (.reference ref)

/-- Names with commas between them. -/
inductive IsNames : Phrase → List String → Prop
  | one (name : String) : IsNames [.name name] [name]
  | cons {ks : Phrase} {names : List String} (name : String) (others : IsNames ks names) :
    IsNames (.name name :: .sign .comma :: ks) (name :: names)

/-- A projection with its colon, or nothing. -/
inductive IsProjection : Phrase → Projection → Prop
  | none : IsProjection [] .all
  | all : IsProjection [.sign .colon, .sign .asterisk] .all
  | fields {ks : Phrase} {names : List String} (h : IsNames ks names) :
    IsProjection (.sign .colon :: ks) (.fields names)

/-- Settings with commas between them. -/
inductive IsSettings : Phrase → List Setting → Prop
  | one {value : Token.Kind} {v : Literal} (field : String) (hvalue : IsLiteral value v) :
    IsSettings [.name field, .sign .equal, value] [⟨field, v⟩]
  | cons {value : Token.Kind} {v : Literal} {ks : Phrase} {settings : List Setting}
    (field : String) (hvalue : IsLiteral value v) (others : IsSettings ks settings) :
    IsSettings (.name field :: .sign .equal :: value :: .sign .comma :: ks)
      (⟨field, v⟩ :: settings)

/-- **A whole statement.** -/
inductive IsStatement : Phrase → Statement → Prop
  | get {target projected clause : Phrase} {ref : Reference} {projection : Projection}
    {condition : Option Condition} (htarget : IsReference target ref)
    (hprojection : IsProjection projected projection) (hclause : IsClause clause condition) :
    IsStatement (.keyword .get :: (target ++ (projected ++ clause)))
      (.get ref projection condition)
  | check {who resource : Phrase} {subject : Subject} {ref : Reference} (permission : String)
    (hwho : IsSubject who subject) (hresource : IsReference resource ref) :
    IsStatement (.keyword .check :: (who ++
      (.keyword .canWord :: .name permission :: .keyword .onWord :: resource)))
      (.check subject permission ref)
  | grant {resource who : Phrase} {ref : Reference} {subject : Subject} (permission : String)
    (hresource : IsReference resource ref) (hwho : IsSubject who subject) :
    IsStatement (.keyword .grant :: .name permission :: .keyword .onWord ::
      (resource ++ (.keyword .toWord :: who))) (.grant permission ref subject)
  | revoke {resource who : Phrase} {ref : Reference} {subject : Subject} (permission : String)
    (hresource : IsReference resource ref) (hwho : IsSubject who subject) :
    IsStatement (.keyword .revoke :: .name permission :: .keyword .onWord ::
      (resource ++ (.keyword .fromWord :: who))) (.revoke permission ref subject)
  | update {target assigned clause : Phrase} {ref : Reference} {settings : List Setting}
    {condition : Option Condition} (htarget : IsReference target ref)
    (hsettings : IsSettings assigned settings) (hclause : IsClause clause condition) :
    IsStatement (.keyword .update :: (target ++ (.keyword .setWord :: (assigned ++ clause))))
      (.update ref settings condition)
  | delete {target clause : Phrase} {ref : Reference} {condition : Option Condition}
    (htarget : IsReference target ref) (hclause : IsClause clause condition) :
    IsStatement (.keyword .delete :: (target ++ clause)) (.delete ref condition)

theorem IsCondition.length_pos {ks : Phrase} {c : Condition} (h : IsCondition ks c) :
    0 < ks.length := by
  cases h <;> simp

/-! ## No phrase holds the end -/

theorem IsLiteral.ne_finish {k : Token.Kind} {v : Literal} (h : IsLiteral k v) : k ≠ .finish := by
  cases h <;> exact nofun

theorem IsComparison.ne_finish {k : Token.Kind} {how : Comparison} (h : IsComparison k how) :
    k ≠ .finish := by
  cases h <;> exact nofun

mutual

theorem IsLevel.finish_not_mem {ks : Phrase} {c : Condition} : IsLevel ks c → .finish ∉ ks
  | .one h => h.finish_not_mem
  | .every first others => by simp [first.finish_not_mem, others.finish_not_mem]
  | .any first others => by simp [first.finish_not_mem, others.finish_not_mem]

theorem IsOthers.finish_not_mem {word : Keyword} {ks : Phrase} {cs : List Condition} :
    IsOthers word ks cs → .finish ∉ ks
  | .last h => by simp [h.finish_not_mem]
  | .cons h others => by simp [h.finish_not_mem, others.finish_not_mem]

theorem IsCondition.finish_not_mem {ks : Phrase} {c : Condition} :
    IsCondition ks c → .finish ∉ ks
  | .compare _ hhow hvalue => by simp [hhow.ne_finish.symm, hvalue.ne_finish.symm]
  | .group h => by simp [h.finish_not_mem]

end

theorem IsClause.finish_not_mem {ks : Phrase} {c : Option Condition} (h : IsClause ks c) :
    .finish ∉ ks := by
  cases h with
  | none => simp
  | some h => simp [h.finish_not_mem]

theorem IsReference.finish_not_mem {ks : Phrase} {ref : Reference} (h : IsReference ks ref) :
    .finish ∉ ks := by
  obtain ⟨_, h⟩ := h
  cases h with
  | conditions h => simp [h.finish_not_mem]
  | _ => simp

theorem IsSubject.finish_not_mem {ks : Phrase} {who : Subject} (h : IsSubject ks who) :
    .finish ∉ ks := by
  cases h with
  | self => simp
  | reference h => exact h.finish_not_mem

theorem IsNames.finish_not_mem {ks : Phrase} {names : List String} (h : IsNames ks names) :
    .finish ∉ ks := by
  induction h with
  | one => simp
  | cons _ _ ih => simp [ih]

theorem IsProjection.finish_not_mem {ks : Phrase} {projection : Projection}
    (h : IsProjection ks projection) : .finish ∉ ks := by
  cases h with
  | fields h => simp [h.finish_not_mem]
  | _ => simp

theorem IsSettings.finish_not_mem {ks : Phrase} {settings : List Setting}
    (h : IsSettings ks settings) : .finish ∉ ks := by
  induction h with
  | one _ hvalue => simp [hvalue.ne_finish.symm]
  | cons _ hvalue _ ih => simp [hvalue.ne_finish.symm, ih]

/-- The end is no part of a statement. -/
theorem IsStatement.finish_not_mem {ks : Phrase} {s : Statement} (h : IsStatement ks s) :
    .finish ∉ ks := by
  cases h with
  | get ht hp hc => simp [ht.finish_not_mem, hp.finish_not_mem, hc.finish_not_mem]
  | check _ hw hr => simp [hw.finish_not_mem, hr.finish_not_mem]
  | grant _ hr hw => simp [hw.finish_not_mem, hr.finish_not_mem]
  | revoke _ hr hw => simp [hw.finish_not_mem, hr.finish_not_mem]
  | update ht hs hc => simp [ht.finish_not_mem, hs.finish_not_mem, hc.finish_not_mem]
  | delete ht hc => simp [ht.finish_not_mem, hc.finish_not_mem]

end Grammar

/-! ## What counts -/

namespace Token.Item

/-- Whether an item is the end of the statement. -/
def isFinish : Token.Item → Bool
  | .ok token => token.kind = .finish
  | .error _ => false

/-- **The items before the end**, or all of them if no end is there. -/
def beforeFinish (items : List Token.Item) : List Token.Item :=
  items.takeWhile (!·.isFinish)

variable {token : Token} {rest : List Token.Item}

theorem beforeFinish_of_finish (h : token.kind = .finish) :
    beforeFinish (.ok token :: rest) = [] :=
  List.takeWhile_cons_of_neg (by simp [isFinish, h])

theorem beforeFinish_of_ne (h : token.kind ≠ .finish) :
    beforeFinish (.ok token :: rest) = .ok token :: beforeFinish rest :=
  List.takeWhile_cons_of_pos (by simp [isFinish, h])

end Token.Item

end Warrant
