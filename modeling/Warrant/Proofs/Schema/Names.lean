import Warrant.Proofs.Schema.Separation
import Warrant.Proofs.Statement.Canonical

/-!
# Names in schemas and in statements

Two rules say what a name is. A schema looks at the characters of a whole text and at the reserved
words; a statement is scanned from the left, over blanks and comments, for as long as characters go
on with a word. The two agree on all texts: a name may be declared exactly when it is scanned as one
token, which is this name, and nothing but the end comes after it. So whatever a schema declares can
be written in a statement, and nothing can be declared that would be scanned as something else.

## Main definitions

- `IsScannedAsName` — a text is scanned as the name that it spells
- `Schema.declaredNames` — the names that a schema declares

## Main statements

- `isScannedAsName_iff` — which texts are scanned as names
- `Schema.checkName_exact` — the names that may be declared are those that can be written
-/

namespace Warrant

/-- **A text is scanned as the name that it spells**: one token, whose text is the whole text, and
    then the end. -/
def IsScannedAsName (n : String) : Prop :=
  ∃ token finish : Token, tokenize n = [.ok token, .ok finish] ∧
    token.kind = .name n ∧ token.text = n ∧ finish.kind = .finish

theorem tokenize_of_isName {n : String} (h : Schema.isName n = true) :
    tokenize n =
      [.ok ⟨.name n, n, .start⟩, .ok ⟨.finish, "", Position.start.after n.toList⟩] := by
  have hspelled : (Token.Kind.name n).isSpellable = true := h
  have hends : (Token.Kind.name n).EndsBefore [] := nofun
  have hnext := Lexer.next_spelling hspelled hends .start
  rw [List.append_nil] at hnext
  obtain ⟨bound, hbound⟩ : ∃ bound, n.toList.length = bound + 1 :=
    Nat.exists_eq_succ_of_ne_zero fun hzero =>
      (Lexeme.isWord_of_isName h).1.ne_nil (List.length_eq_zero_iff.1 hzero)
  have htext : String.ofList (Token.Kind.name n).spelling = n := String.ofList_toList
  unfold tokenize Lexer.ofString
  simp only [Token.Kind.spelling] at hnext htext
  rw [hbound, Lexer.items, hnext, htext]
  rfl

/-- **Which texts are scanned as names**: the names that a schema may declare. -/
theorem isScannedAsName_iff {n : String} : IsScannedAsName n ↔ Schema.isName n = true := by
  constructor
  · rintro ⟨token, finish, htokens, hkind, -, -⟩
    have hmem : (.ok token : Token.Item) ∈ tokenize n := by
      rw [htokens]
      exact List.mem_cons_self
    rcases Lexer.isSpellable_of_mem_items hmem with hfinish | hspelled
    · rw [hkind] at hfinish
      exact nomatch hfinish
    · rw [hkind] at hspelled
      exact hspelled
  · intro h
    exact ⟨_, _, tokenize_of_isName h, rfl, rfl, rfl⟩

namespace Schema

/-- The names that a schema declares: of entities, of their fields and of permissions. -/
def declaredNames (s : Schema) : List String :=
  s.entities.flatMap (fun e => e.name :: e.fieldNames) ++ s.permissions

theorem checkName_eq_ok_iff {n : String} : checkName n = .ok () ↔ isName n = true := by
  refine ⟨isName_of_checkName, fun h => ?_⟩
  rw [checkName, if_pos h]

theorem isName_of_mem_declaredNames {s : Schema} (h : s.validate = .ok ()) :
    ∀ n ∈ s.declaredNames, isName n = true := by
  obtain ⟨hentities, hpermissions, -⟩ := isNamed_of_validate h
  intro n hn
  rcases List.mem_append.1 hn with hn | hn
  · obtain ⟨e, he, hn⟩ := List.mem_flatMap.1 hn
    rcases List.mem_cons.1 hn with rfl | hn
    · exact (hentities e he).name
    · obtain ⟨f, hf, rfl⟩ := List.mem_map.1 hn
      exact (hentities e he).fields f hf
  · exact hpermissions n hn

/-- Names of any kind stand in a statement as they are. -/
theorem read_check {entity field permission resource : String} (he : isName entity = true)
    (hf : isName field = true) (hp : isName permission = true) (hr : isName resource = true) :
    Statement.read ("CHECK " ++ entity ++ "(" ++ field ++ " = SELF) CAN " ++ permission ++ " ON " ++
        resource) =
      .ok (.check (.reference ⟨entity, .conditions (.compare field .equal .self)⟩) permission
        ⟨resource, .all⟩) := by
  let s : Statement := .check (.reference ⟨entity, .conditions (.compare field .equal .self)⟩)
    permission ⟨resource, .all⟩
  have hwell : s.isWellFormed = true := by
    simp [s, Statement.isWellFormed, Subject.isWellFormed, Reference.isWellFormed,
      Selector.isWellFormed, Condition.isWellFormed, Literal.isWellFormed, he, hf, hp, hr]
  have htext : s.write = "CHECK " ++ entity ++ "(" ++ field ++ " = SELF) CAN " ++ permission ++
      " ON " ++ resource := by
    refine String.toList_injective ?_
    rw [Statement.write, String.toList_ofList]
    change "CHECK ".toList ++ (entity.toList ++ '(' :: ((field.toList ++ " = SELF".toList) ++
      [')'])) ++ " CAN ".toList ++ permission.toList ++ " ON ".toList ++ (resource.toList ++ []) = _
    simp
  rw [← htext]
  exact Statement.parse_eq_ok_iff.2 (Statement.exists_tokens_write hwell)

/-- **The names that may be declared are those that can be written.** The rule of names accepts a
    text exactly if it is scanned as the name that it spells. So all names of a schema that keeps the
    rules are scanned as names, none of them as a reserved word, as a number or as several tokens,
    and statements can speak of its entities, fields and permissions as they are spelled. -/
theorem checkName_exact :
    (∀ n, checkName n = .ok () ↔ IsScannedAsName n) ∧
    ∀ s : Schema, s.validate = .ok () →
      (∀ n ∈ s.declaredNames, IsScannedAsName n) ∧
      ∀ e ∈ s.entities, ∀ f ∈ e.fields, ∀ p ∈ s.permissions, ∀ e' ∈ s.entities,
        Statement.read ("CHECK " ++ e.name ++ "(" ++ f.name ++ " = SELF) CAN " ++ p ++ " ON " ++
            e'.name) =
          .ok (.check (.reference ⟨e.name, .conditions (.compare f.name .equal .self)⟩) p
            ⟨e'.name, .all⟩) := by
  refine ⟨fun n => checkName_eq_ok_iff.trans isScannedAsName_iff.symm, fun s hs => ⟨?_, ?_⟩⟩
  · intro n hn
    exact isScannedAsName_iff.2 (isName_of_mem_declaredNames hs n hn)
  · obtain ⟨hentities, hpermissions, -⟩ := isNamed_of_validate hs
    intro e he f hf p hp e' he'
    exact read_check (hentities e he).name ((hentities e he).fields f hf) (hpermissions p hp)
      (hentities e' he').name

/-- A field with an underscore in its name is scanned as a name, and users can be known by one. -/
theorem checkName_exact_standard :
    standard.validate = .ok () ∧ "created_at" ∈ standard.declaredNames ∧
    IsScannedAsName "created_at" ∧
    Statement.read ("CHECK " ++ "User" ++ "(" ++ "username" ++ " = SELF) CAN " ++ "share" ++ " ON " ++
        "Resource") =
      .ok (.check (.reference ⟨"User", .conditions (.compare "username" .equal .self)⟩) "share"
        ⟨"Resource", .all⟩) := by
  have hdeclared : "created_at" ∈ standard.declaredNames := by decide
  obtain ⟨hscanned, hwritten⟩ := checkName_exact.2 standard validate_standard
  have hread := hwritten _ List.mem_cons_self _ (List.mem_cons_of_mem _ List.mem_cons_self) "share"
    (by decide) _ (List.mem_cons_of_mem _ List.mem_cons_self)
  exact ⟨validate_standard, hdeclared, hscanned _ hdeclared, hread⟩

end Schema

end Warrant
