import Warrant.Proofs.Statement.Exactness
import Warrant.Proofs.Token.Spelling

/-!
# Statements are read as they are written

The text of a statement is put together of the spellings of a phrase that the grammar gives to the
statement. So the lexer finds the phrase, and the parser the statement.

## Main definitions

- `Statement.isWellFormed` — names are names, groups have two parts, lists an entry, floats are
  finite
- `Writes` — a text stands for a phrase wherever nothing goes on with its last token

## Main statements

- `Writes.exists_of_level` — the text of a condition
- `Statement.read_write` — the text of a statement is read as the statement
-/

namespace Warrant

open Grammar
open Lexeme (Stops continuesName)

/-! ## Well-formed statements -/

def Literal.isWellFormed : Literal → Bool
  | .float x => x.isFinite
  | _ => true

mutual

/-- Whether a condition compares fields with finite literals and groups two conditions at least. -/
def Condition.isWellFormed : Condition → Bool
  | .compare field _ value => Schema.isName field && value.isWellFormed
  | .every parts => 2 ≤ parts.length && Condition.areWellFormed parts
  | .any parts => 2 ≤ parts.length && Condition.areWellFormed parts

def Condition.areWellFormed : List Condition → Bool
  | [] => true
  | c :: rest => Condition.isWellFormed c && Condition.areWellFormed rest

end

def Selector.isWellFormed : Selector → Bool
  | .id name => Schema.isName name
  | .conditions c => c.isWellFormed
  | _ => true

def Reference.isWellFormed (ref : Reference) : Bool :=
  Schema.isName ref.entity && ref.selector.isWellFormed

def Subject.isWellFormed : Subject → Bool
  | .self => true
  | .reference ref => ref.isWellFormed

def Projection.isWellFormed : Projection → Bool
  | .all => true
  | .fields names => !names.isEmpty && names.all Schema.isName

def Setting.isWellFormed (s : Setting) : Bool :=
  Schema.isName s.field && s.value.isWellFormed

/-- **Whether a statement can be written**: every name is one, no list is empty, and every float is
    finite. -/
def Statement.isWellFormed : Statement → Bool
  | .get target projection condition =>
    target.isWellFormed && projection.isWellFormed && condition.all Condition.isWellFormed
  | .check subject permission resource =>
    subject.isWellFormed && Schema.isName permission && resource.isWellFormed
  | .grant permission resource subject | .revoke permission resource subject =>
    Schema.isName permission && resource.isWellFormed && subject.isWellFormed
  | .update target settings condition =>
    target.isWellFormed && !settings.isEmpty && settings.all Setting.isWellFormed &&
      condition.all Condition.isWellFormed
  | .delete target condition => target.isWellFormed && condition.all Condition.isWellFormed

/-! ## Texts of phrases -/

/-- **A text stands for a phrase** before every text that goes on with no word and no number. -/
def Writes (cs : List Char) (ks : Phrase) : Prop :=
  ∀ rest later, Stops rest → Spells rest later → Spells (cs ++ rest) (ks ++ later)

theorem stops_nil : Stops [] := nofun

theorem stops_cons {c : Char} (h : continuesName c = false ∧ c ≠ '.') (cs : List Char) :
    Stops (c :: cs) := by
  rintro d ⟨⟩
  exact h

theorem stops_blank (cs : List Char) : Stops (' ' :: cs) :=
  stops_cons ⟨by decide, by decide⟩ cs

theorem stops_append {cs ds : List Char} (h : Stops cs) (h' : Stops ds) :
    Stops (cs ++ ds) := by
  cases cs with
  | nil => exact h'
  | cons c cs => exact stops_cons (h c rfl) _

namespace Writes

variable {cs ds : List Char} {ks ls : Phrase}

theorem nil : Writes [] [] :=
  fun _ _ _ h => h

theorem token (k : Token.Kind) (hk : k.isSpellable = true) : Writes k.spelling [k] :=
  fun _ _ hrest h => .token hk (Token.Kind.endsBefore_of_stops hrest k) h

theorem blank (h : Writes cs ks) : Writes (' ' :: cs) ks :=
  fun rest later hrest hlater => .blank (h rest later hrest hlater)

/-- One text after another, if the second does not go on with the first. -/
theorem append (h : Writes cs ks) (h' : Writes ds ls) (hds : Stops ds) :
    Writes (cs ++ ds) (ks ++ ls) := by
  intro rest later hrest hlater
  rw [List.append_assoc, List.append_assoc]
  exact h _ _ (stops_append hds hrest) (h' rest later hrest hlater)

theorem spaced (h : Writes cs ks) (h' : Writes ds ls) : Writes (cs ++ ' ' :: ds) (ks ++ ls) :=
  h.append h'.blank (stops_blank ds)

/-- A sign ends by itself. -/
theorem sign (s : Sign) (h : Writes cs ks) : Writes (s.text.toList ++ cs) (.sign s :: ks) := by
  intro rest later hrest hlater
  rw [List.append_assoc]
  exact .token (k := .sign s) rfl trivial (h rest later hrest hlater)

theorem keyword (word : Keyword) (h : Writes cs ks) :
    Writes (word.text.toList ++ ' ' :: cs) (.keyword word :: ks) :=
  (token (.keyword word) rfl).spaced h

theorem name {s : String} (hs : Schema.isName s = true) : Writes s.toList [.name s] :=
  token (.name s) hs

theorem group (h : Writes cs ks) :
    Writes ('(' :: (cs ++ [')'])) (.sign .leftParen :: (ks ++ [.sign .rightParen])) :=
  sign .leftParen (h.append (sign .rightParen nil) (stops_cons ⟨by decide, by decide⟩ []))

theorem comma (h : Writes cs ks) (h' : Writes ds ls) :
    Writes (cs ++ ',' :: ' ' :: ds) (ks ++ (.sign .comma :: ls)) :=
  h.append (sign .comma h'.blank) (stops_cons ⟨by decide, by decide⟩ _)

/-! ## Conditions -/

theorem exists_of_literal {v : Literal} (hv : v.isWellFormed = true) :
    ∃ k, IsLiteral k v ∧ Writes v.write [k] := by
  cases v with
  | string s => exact ⟨_, .string s, token (.string s) rfl⟩
  | integer i => exact ⟨_, .integer i, token (.integer i) rfl⟩
  | float x => exact ⟨_, .float x, token (.float x) hv⟩
  | boolean b =>
    cases b with
    | false => exact ⟨_, .false, token (.keyword .falseWord) rfl⟩
    | true => exact ⟨_, .true, token (.keyword .trueWord) rfl⟩
  | self => exact ⟨_, .self, token (.keyword .selfWord) rfl⟩

theorem exists_of_comparison {field : String} (how : Comparison) {value : Literal}
    (hfield : Schema.isName field = true) (hvalue : value.isWellFormed = true) :
    ∃ ks, IsCondition ks (.compare field how value) ∧
      Writes (Condition.writeComparison field how value) ks := by
  obtain ⟨k, hk, hwrites⟩ := exists_of_literal hvalue
  cases how with
  | equal =>
    exact ⟨_, .compare field .equal hk, (name hfield).spaced (sign .equal hwrites.blank)⟩
  | different =>
    exact ⟨_, .compare field .different hk, (name hfield).spaced (sign .different hwrites.blank)⟩

end Writes

/-- The text between two conditions. -/
def Parser.Connective.text (connective : Parser.Connective) : List Char :=
  ' ' :: (connective.word.text.toList ++ [' '])

/-- The parts of a level: a condition, and the others if there are any. -/
def IsParts (connective : Parser.Connective) (ks : Phrase) (parts : List Condition) : Prop :=
  ∃ c cs first others, parts = c :: cs ∧ ks = first ++ others ∧ IsCondition first c ∧
    (cs = [] ∧ others = [] ∨ IsOthers connective.word others cs)

theorem IsParts.isLevel {connective : Parser.Connective} {ks : Phrase} {parts : List Condition}
    (h : IsParts connective ks parts) (hlength : 2 ≤ parts.length) :
    IsLevel ks (connective.join parts) := by
  obtain ⟨c, cs, first, others, rfl, rfl, hfirst, ⟨rfl, -⟩ | hothers⟩ := h
  · exact absurd hlength (Nat.not_succ_le_self 1)
  · exact Parser.isLevel_join hfirst hothers

theorem IsParts.isOthers {connective : Parser.Connective} {ks : Phrase} {parts : List Condition}
    (h : IsParts connective ks parts) :
    IsOthers connective.word (.keyword connective.word :: ks) parts := by
  obtain ⟨c, cs, first, others, rfl, rfl, hfirst, ⟨rfl, rfl⟩ | hothers⟩ := h
  · rw [List.append_nil]
    exact .last hfirst
  · exact .cons hfirst hothers

namespace Writes

mutual

theorem exists_of_inner : ∀ c : Condition, c.isWellFormed = true →
    ∃ ks, IsCondition ks c ∧ Writes c.writeInner ks
  | .compare field how value, h => by
    rw [Condition.isWellFormed, Bool.and_eq_true] at h
    exact exists_of_comparison how h.1 h.2
  | .every parts, h => by
    rw [Condition.isWellFormed, Bool.and_eq_true, decide_eq_true_eq] at h
    obtain ⟨ks, hks, hwrites⟩ := exists_of_parts .and parts h.2 (Nat.zero_lt_of_lt h.1)
    exact ⟨_, .group (hks.isLevel h.1), hwrites.group⟩
  | .any parts, h => by
    rw [Condition.isWellFormed, Bool.and_eq_true, decide_eq_true_eq] at h
    obtain ⟨ks, hks, hwrites⟩ := exists_of_parts .or parts h.2 (Nat.zero_lt_of_lt h.1)
    exact ⟨_, .group (hks.isLevel h.1), hwrites.group⟩

theorem exists_of_parts (connective : Parser.Connective) : ∀ parts : List Condition,
    Condition.areWellFormed parts = true → 0 < parts.length →
    ∃ ks, IsParts connective ks parts ∧ Writes (Condition.writeParts connective.text parts) ks
  | [], _, hpos => absurd hpos (Nat.lt_irrefl 0)
  | [c], h, _ => by
    rw [Condition.areWellFormed, Bool.and_eq_true] at h
    obtain ⟨ks, hks, hwrites⟩ := exists_of_inner c h.1
    exact ⟨ks, ⟨c, [], ks, [], rfl, (List.append_nil ks).symm, hks, .inl ⟨rfl, rfl⟩⟩, hwrites⟩
  | c :: c' :: rest, h, _ => by
    rw [Condition.areWellFormed, Bool.and_eq_true] at h
    obtain ⟨ks, hks, hwrites⟩ := exists_of_inner c h.1
    obtain ⟨ls, hls, hwrites'⟩ := exists_of_parts connective (c' :: rest) h.2 (Nat.succ_pos _)
    refine ⟨ks ++ (.keyword connective.word :: ls),
      ⟨c, c' :: rest, ks, _, rfl, rfl, hks, .inr hls.isOthers⟩, ?_⟩
    have htext := hwrites.spaced (hwrites'.keyword connective.word)
    simpa [Condition.writeParts, Parser.Connective.text] using htext

end

theorem exists_of_level {c : Condition} (h : c.isWellFormed = true) :
    ∃ ks, IsLevel ks c ∧ Writes c.writeTop ks := by
  cases c with
  | compare field how value =>
    rw [Condition.isWellFormed, Bool.and_eq_true] at h
    obtain ⟨ks, hks, hwrites⟩ := exists_of_comparison how h.1 h.2
    exact ⟨ks, .one hks, hwrites⟩
  | every parts =>
    rw [Condition.isWellFormed, Bool.and_eq_true, decide_eq_true_eq] at h
    obtain ⟨ks, hks, hwrites⟩ := exists_of_parts .and parts h.2 (Nat.zero_lt_of_lt h.1)
    exact ⟨ks, hks.isLevel h.1, hwrites⟩
  | any parts =>
    rw [Condition.isWellFormed, Bool.and_eq_true, decide_eq_true_eq] at h
    obtain ⟨ks, hks, hwrites⟩ := exists_of_parts .or parts h.2 (Nat.zero_lt_of_lt h.1)
    exact ⟨ks, hks.isLevel h.1, hwrites⟩

theorem exists_of_clause {c : Option Condition} (h : c.all Condition.isWellFormed = true) :
    ∃ ks, IsClause ks c ∧ Writes (Condition.writeClause c) ks := by
  cases c with
  | none => exact ⟨[], .none, nil⟩
  | some c =>
    obtain ⟨ks, hks, hwrites⟩ := exists_of_level h
    exact ⟨_, .some hks, (hwrites.keyword .whereWord).blank⟩

/-! ## References and lists -/

/-- A name, and something right after it that does not go on with it. -/
theorem name_append {s : String} {cs : List Char} {ks : Phrase} (hs : Schema.isName s = true)
    (h : Writes cs ks) (hcs : ∀ c ∈ cs.head?, continuesName c = false) :
    Writes (s.toList ++ cs) (.name s :: ks) := by
  intro rest later hrest hlater
  have hends : Token.Kind.EndsBefore (cs ++ rest) (.name s) := by
    cases cs with
    | nil => exact fun c hc => (hrest c hc).1
    | cons c cs => exact hcs
  rw [List.append_assoc]
  exact .token (k := .name s) hs hends (h rest later hrest hlater)

theorem exists_of_reference {ref : Reference} (h : ref.isWellFormed = true) :
    ∃ ks, IsReference ks ref ∧ Writes ref.write ks := by
  obtain ⟨entity, selector⟩ := ref
  rw [Reference.isWellFormed, Bool.and_eq_true] at h
  obtain ⟨hentity, hselector⟩ := h
  have hdot : ∀ cs : List Char, ∀ c ∈ ('.' :: cs).head?, continuesName c = false := by
    rintro cs c ⟨⟩
    decide
  cases selector with
  | all => exact ⟨_, .mk entity .all, name_append hentity nil nofun⟩
  | id s =>
    exact ⟨_, .mk entity (.id s), name_append hentity (sign .dot (name hselector)) (hdot _)⟩
  | conditions c =>
    obtain ⟨ks, hks, hwrites⟩ := exists_of_level hselector
    exact ⟨_, .mk entity (.conditions hks), name_append hentity hwrites.group
      (by rintro c ⟨⟩; decide)⟩
  | wildcard =>
    exact ⟨_, .mk entity .wildcard, name_append hentity (sign .dot (sign .asterisk nil)) (hdot _)⟩
  | self =>
    exact ⟨_, .mk entity .self, name_append hentity
      (sign .dot (token (.keyword .selfWord) rfl)) (hdot _)⟩

theorem exists_of_subject {who : Subject} (h : who.isWellFormed = true) :
    ∃ ks, IsSubject ks who ∧ Writes who.write ks := by
  cases who with
  | self => exact ⟨_, .self, token (.keyword .selfWord) rfl⟩
  | reference ref =>
    obtain ⟨ks, hks, hwrites⟩ := exists_of_reference h
    exact ⟨ks, .reference hks, hwrites⟩

theorem exists_of_names {s : String} {names : List String} (hs : Schema.isName s = true)
    (h : names.all Schema.isName = true) :
    ∃ ks, IsNames ks (s :: names) ∧ Writes (Projection.writeNames (s :: names)) ks := by
  induction names generalizing s with
  | nil => exact ⟨_, .one s, name hs⟩
  | cons t names ih =>
    rw [List.all_cons, Bool.and_eq_true] at h
    obtain ⟨ks, hks, hwrites⟩ := ih h.1 h.2
    exact ⟨_, .cons s hks, (name hs).comma hwrites⟩

theorem exists_of_projection {projection : Projection} (h : projection.isWellFormed = true) :
    ∃ ks, IsProjection ks projection ∧ Writes projection.write ks ∧ Stops projection.write := by
  cases projection with
  | all => exact ⟨[], .none, nil, stops_nil⟩
  | fields names =>
    cases names with
    | nil => exact absurd h Bool.false_ne_true
    | cons s names =>
      have hall : Schema.isName s = true ∧ names.all Schema.isName = true := by
        simpa [Projection.isWellFormed] using h
      obtain ⟨ks, hks, hwrites⟩ := exists_of_names hall.1 hall.2
      exact ⟨_, .fields hks, (sign .colon hwrites.blank).blank, stops_blank _⟩

theorem exists_of_settings {s : Setting} {others : List Setting} (hs : s.isWellFormed = true)
    (h : others.all Setting.isWellFormed = true) :
    ∃ ks, IsSettings ks (s :: others) ∧ Writes (Setting.writeList (s :: others)) ks := by
  have hsetting : ∀ s : Setting, s.isWellFormed = true →
      ∃ k, IsLiteral k s.value ∧ Writes s.write [.name s.field, .sign .equal, k] := by
    intro s hs
    rw [Setting.isWellFormed, Bool.and_eq_true] at hs
    obtain ⟨k, hk, hwrites⟩ := exists_of_literal hs.2
    have htext := (name hs.1).spaced (sign .equal hwrites.blank)
    exact ⟨k, hk, by simpa [Setting.write, Sign.text] using htext⟩
  induction others generalizing s with
  | nil =>
    obtain ⟨k, hk, hwrites⟩ := hsetting s hs
    exact ⟨_, .one s.field hk, hwrites⟩
  | cons t others ih =>
    rw [List.all_cons, Bool.and_eq_true] at h
    obtain ⟨k, hk, hwrites⟩ := hsetting s hs
    obtain ⟨ks, hks, hwrites'⟩ := ih h.1 h.2
    exact ⟨_, .cons s.field hk hks, hwrites.comma hwrites'⟩

/-! ## Statements -/

theorem stops_writeClause (c : Option Condition) : Stops (Condition.writeClause c) := by
  cases c with
  | none => exact stops_nil
  | some c => exact stops_blank _

/-- GRANT and REVOKE differ in the word before the subject. -/
theorem exists_of_delegation (word : Keyword) {permission : String} {resource : Reference}
    {who : Subject} (hpermission : Schema.isName permission = true)
    (hresource : resource.isWellFormed = true) (hwho : who.isWellFormed = true) :
    ∃ ks ls, IsReference ks resource ∧ IsSubject ls who ∧
      Writes (permission.toList ++ ' ' :: (Keyword.onWord.text.toList ++ ' ' :: (resource.write ++
        ' ' :: (word.text.toList ++ ' ' :: who.write))))
        (.name permission :: .keyword .onWord :: (ks ++ (.keyword word :: ls))) := by
  obtain ⟨ks, hks, htext⟩ := exists_of_reference hresource
  obtain ⟨ls, hls, htext'⟩ := exists_of_subject hwho
  have hon := (htext.spaced (htext'.keyword word)).keyword .onWord
  exact ⟨ks, ls, hks, hls, (name hpermission).spaced hon⟩

theorem exists_of_statement {s : Statement} (h : s.isWellFormed = true) :
    ∃ ks, IsStatement ks s ∧ Writes s.writeChars ks := by
  -- A statement is written as its words with the texts of its parts between them, and where the
  -- text of a part could go on, the next part stops it.
  cases s with
  | get target projection condition =>
    simp only [Statement.isWellFormed, Bool.and_eq_true] at h
    obtain ⟨⟨htarget, hprojection⟩, hcondition⟩ := h
    obtain ⟨ks, hks, htext⟩ := exists_of_reference htarget
    obtain ⟨ls, hls, hprojected, hstops⟩ := exists_of_projection hprojection
    obtain ⟨ms, hms, hclause⟩ := exists_of_clause hcondition
    have hwrites := (htext.append (hprojected.append hclause (stops_writeClause condition))
      (stops_append hstops (stops_writeClause condition))).keyword .get
    refine ⟨_, .get hks hls hms, ?_⟩
    change Writes ("GET ".toList ++ target.write ++ projection.write ++
      Condition.writeClause condition) _
    simpa [Keyword.text] using hwrites
  | check who permission resource =>
    simp only [Statement.isWellFormed, Bool.and_eq_true] at h
    obtain ⟨⟨hwho, hpermission⟩, hresource⟩ := h
    obtain ⟨ks, hks, htext⟩ := exists_of_subject hwho
    obtain ⟨ls, hls, htext'⟩ := exists_of_reference hresource
    have hcan := ((name hpermission).spaced (htext'.keyword .onWord)).keyword .canWord
    have hwrites := (htext.spaced hcan).keyword .check
    refine ⟨_, .check permission hks hls, ?_⟩
    change Writes ("CHECK ".toList ++ who.write ++ " CAN ".toList ++ permission.toList ++
      " ON ".toList ++ resource.write) _
    simpa [Keyword.text] using hwrites
  | grant permission resource who =>
    simp only [Statement.isWellFormed, Bool.and_eq_true] at h
    obtain ⟨⟨hpermission, hresource⟩, hwho⟩ := h
    obtain ⟨ks, ls, hks, hls, hwrites⟩ := exists_of_delegation .toWord hpermission hresource hwho
    refine ⟨_, .grant permission hks hls, ?_⟩
    change Writes ("GRANT ".toList ++ permission.toList ++ " ON ".toList ++ resource.write ++
      " TO ".toList ++ who.write) _
    simpa [Keyword.text] using hwrites.keyword .grant
  | revoke permission resource who =>
    simp only [Statement.isWellFormed, Bool.and_eq_true] at h
    obtain ⟨⟨hpermission, hresource⟩, hwho⟩ := h
    obtain ⟨ks, ls, hks, hls, hwrites⟩ := exists_of_delegation .fromWord hpermission hresource hwho
    refine ⟨_, .revoke permission hks hls, ?_⟩
    change Writes ("REVOKE ".toList ++ permission.toList ++ " ON ".toList ++ resource.write ++
      " FROM ".toList ++ who.write) _
    simpa [Keyword.text] using hwrites.keyword .revoke
  | update target settings condition =>
    simp only [Statement.isWellFormed, Bool.and_eq_true] at h
    obtain ⟨⟨⟨htarget, hne⟩, hsettings⟩, hcondition⟩ := h
    cases settings with
    | nil => exact absurd hne Bool.false_ne_true
    | cons s others =>
      rw [List.all_cons, Bool.and_eq_true] at hsettings
      obtain ⟨ks, hks, htext⟩ := exists_of_reference htarget
      obtain ⟨ls, hls, hassigned⟩ := exists_of_settings hsettings.1 hsettings.2
      obtain ⟨ms, hms, hclause⟩ := exists_of_clause hcondition
      have hset := (hassigned.append hclause (stops_writeClause condition)).keyword .setWord
      have hwrites := (htext.spaced hset).keyword .update
      refine ⟨_, .update hks hls hms, ?_⟩
      change Writes ("UPDATE ".toList ++ target.write ++ " SET ".toList ++
        Setting.writeList (s :: others) ++ Condition.writeClause condition) _
      simpa [Keyword.text] using hwrites
  | delete target condition =>
    simp only [Statement.isWellFormed, Bool.and_eq_true] at h
    obtain ⟨htarget, hcondition⟩ := h
    obtain ⟨ks, hks, htext⟩ := exists_of_reference htarget
    obtain ⟨ls, hls, hclause⟩ := exists_of_clause hcondition
    have hwrites := (htext.append hclause (stops_writeClause condition)).keyword .delete
    refine ⟨_, .delete hks hls, ?_⟩
    change Writes ("DELETE ".toList ++ target.write ++ Condition.writeClause condition) _
    simpa [Keyword.text] using hwrites

end Writes

/-- The text of a statement is taken apart into a phrase of the statement. -/
theorem Statement.exists_tokens_write {s : Statement} (h : s.isWellFormed = true) :
    ∃ tokens : List Token, Token.Item.beforeFinish (tokenize s.write) = tokens.map .ok ∧
      IsStatement (tokens.map Token.kind) s := by
  obtain ⟨ks, hks, hwrites⟩ := Writes.exists_of_statement h
  have hspells : Spells s.write.toList ks := by
    have hspells := hwrites [] [] stops_nil .nil
    rwa [List.append_nil, List.append_nil, ← String.toList_ofList (l := s.writeChars)] at hspells
  obtain ⟨tokens, hitems, rfl⟩ := hspells.exists_tokens
  exact ⟨tokens, hitems, hks⟩

/-- **The text of a statement is read as the statement.** -/
theorem Statement.read_write {s : Statement} (h : s.isWellFormed = true) :
    read s.write = .ok s :=
  parse_eq_ok_iff.2 (exists_tokens_write h)

/-- The smallest integer, a float with an exponent, quotes, and groups within groups. -/
theorem Statement.read_write_nested :
    let s : Statement := .update ⟨"Note", .conditions (.any [.compare "x" .different
        (.float ⟨0x7fefffffffffffff⟩), .every [.compare "owner" .equal .self,
          .any [.compare "n" .equal (.integer (-9223372036854775808)),
            .compare "ok" .equal (.boolean false)]]])⟩
      [⟨"text", .string "say \"hi\"\n\\ — ok"⟩] (some (.compare "GET_" .equal (.string "")))
    s.isWellFormed = true ∧ read s.write = .ok s :=
  ⟨by decide, read_write (by decide)⟩

end Warrant
