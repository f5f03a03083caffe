import Warrant.Statement.Basic
import Warrant.Token.Lexer

/-!
# From tokens to statements

The parser looks at one token at a time and asks for the next one only when it has used the
current one. So of a misplaced token and a lexical fault the one that comes first is reported. A
sequence of tokens without an end is read as if its end followed at the place of its last token.

## Main definitions

- `SyntaxError` — what was found where something else could stand
- `Parser` — the current token and the items after it
- `Statement.parse` — one statement, up to the end
- `Statement.read` — the statement that a text writes
-/

namespace Warrant

/-- What could have stood at a place. -/
inductive Expectation
  | statement
  | permission
  | field
  /-- A field at the start of a projection. -/
  | fieldOrAsterisk
  | entity
  | entityOrSelf
  /-- What follows the dot of a reference. -/
  | selector
  | condition
  | comparison
  | literal
  /-- No AND, on a level that is joined by OR. -/
  | anyLevel
  /-- No OR, on a level that is joined by AND. -/
  | everyLevel
  | exactly (kind : Token.Kind)
deriving DecidableEq

/-- What could have stood at a place, in messages. -/
def Expectation.write : Expectation → String
  | .statement => "GET, CHECK, GRANT, REVOKE, UPDATE or DELETE"
  | .permission => "permission name"
  | .field => "field name"
  | .fieldOrAsterisk => "field name or '*'"
  | .entity => "entity type"
  | .entityOrSelf => "entity type or SELF"
  | .selector => "identifier, '*' or SELF"
  | .condition => "condition"
  | .comparison => "'=' or '!='"
  | .literal => "literal value"
  | .anyLevel => "OR or a parenthesized group"
  | .everyLevel => "AND or a parenthesized group"
  | .exactly kind => kind.write

/-- A misplaced token. -/
structure SyntaxError where
  position : Position
  expected : Expectation
  found : Token.Kind
deriving DecidableEq

def SyntaxError.write (e : SyntaxError) : String :=
  "syntax error at " ++ e.position.write ++ ": expected " ++ e.expected.write ++ ", found " ++
    e.found.write

/-- Why a text or a sequence of tokens is no statement. -/
inductive ParseError
  | lexical (e : LexError)
  | syntactic (e : SyntaxError)
deriving DecidableEq

def ParseError.write : ParseError → String
  | .lexical e => e.write
  | .syntactic e => e.write

/-- A parser: the token it looks at and the items it has not asked for. -/
structure Parser where
  current : Token
  rest : List Token.Item

namespace Parser

/-- The end that stands for a missing one. -/
def impliedFinish (position : Position) : Token :=
  ⟨.finish, "", position⟩

/-- A parser at the first of some items. -/
def ofItems : List Token.Item → Except ParseError Parser
  | [] => .ok ⟨impliedFinish .start, []⟩
  | .ok token :: rest => .ok ⟨token, rest⟩
  | .error e :: _ => .error (.lexical e)

/-- An action on a parser. It may fail, and leaves the parser where it stood then. -/
abbrev Action (α : Type) := EStateM ParseError Parser α

/-- The kind of the current token. -/
def peek : Action Token.Kind := do
  return (← get).current.kind

/-- Fails because something else than the current token could have stood here. -/
def unexpected {α : Type} (expected : Expectation) : Action α := do
  let token := (← get).current
  throw (.syntactic ⟨token.position, expected, token.kind⟩)

/-- Moves to the next token. The end is never left; a fault is used up and reported. -/
def advance : Action Unit := do
  let p ← get
  if p.current.kind = .finish then return
  match p.rest with
  | [] => set { p with current := impliedFinish p.current.position }
  | .ok token :: rest => set (⟨token, rest⟩ : Parser)
  | .error e :: rest => do
    set { p with rest := rest }
    throw (.lexical e)

/-- Moves over a token of the given kind. -/
def expect (kind : Token.Kind) : Action Unit := do
  if (← peek) = kind then advance else unexpected (.exactly kind)

/-- Moves over a reserved word. -/
def keyword (k : Keyword) : Action Unit :=
  expect (.keyword k)

/-- Moves over a sign. -/
def sign (s : Sign) : Action Unit :=
  expect (.sign s)

/-- Moves over a name. -/
def name (expected : Expectation) : Action String := do
  match ← peek with
  | .name s => do
    advance
    return s
  | _ => unexpected expected

/-! ## Conditions -/

/-- The literal that a token writes. -/
def literalOf? : Token.Kind → Option Literal
  | .string s => some (.string s)
  | .integer i => some (.integer i)
  | .float x => some (.float x)
  | .keyword .trueWord => some (.boolean true)
  | .keyword .falseWord => some (.boolean false)
  | .keyword .selfWord => some .self
  | _ => none

/-- A literal. -/
def literal : Action Literal := do
  match literalOf? (← peek) with
  | some value => do
    advance
    return value
  | none => unexpected .literal

/-- The comparison that a token writes. -/
def comparisonOf? : Token.Kind → Option Comparison
  | .sign .equal => some .equal
  | .sign .different => some .different
  | _ => none

/-- A comparison sign. -/
def comparison : Action Comparison := do
  match comparisonOf? (← peek) with
  | some how => do
    advance
    return how
  | none => unexpected .comparison

/-- The words that join conditions. -/
inductive Connective
  | and
  | or
deriving DecidableEq

/-- The connective that a token writes. -/
def connectiveOf? : Token.Kind → Option Connective
  | .keyword .andWord => some .and
  | .keyword .orWord => some .or
  | _ => none

/-- Conditions joined by a connective. -/
def Connective.join : Connective → List Condition → Condition
  | .and, parts => .every parts
  | .or, parts => .any parts

/-- What could have stood where the other connective stands. -/
def Connective.expectation : Connective → Expectation
  | .and => .everyLevel
  | .or => .anyLevel

mutual

/-- The conditions of one level. The first argument bounds the tokens that conditions take. -/
def conditions : Nat → Action Condition
  | 0 => unexpected .condition
  | bound + 1 => do
    let first ← condition bound
    match connectiveOf? (← peek) with
    | none => return first
    | some connective => do
      let others ← moreConditions bound connective
      return connective.join (first :: others)

/-- The conditions of a level after the first, each after the connective of the level. -/
def moreConditions : Nat → Connective → Action (List Condition)
  | 0, _ => unexpected .condition
  | bound + 1, connective => do
    match connectiveOf? (← peek) with
    | none => return []
    | some found =>
      if found = connective then do
        advance
        let c ← condition bound
        let others ← moreConditions bound connective
        return c :: others
      else unexpected connective.expectation

/-- A comparison, or a group in parentheses. -/
def condition : Nat → Action Condition
  | 0 => unexpected .condition
  | bound + 1 => do
    match ← peek with
    | .sign .leftParen => do
      advance
      let inner ← conditions bound
      sign .rightParen
      return inner
    | .name field => do
      advance
      let how ← comparison
      let value ← literal
      return .compare field how value
    | _ => unexpected .condition

end

/-- The conditions of one level. Every condition takes a token at least and goes through at most
    two calls without one, so the number of items left bounds the recursion. -/
def conditionList : Action Condition := do
  conditions (2 * (← get).rest.length + 4)

/-- A WHERE clause, if there is one. -/
def whereClause : Action (Option Condition) := do
  if (← peek) = .keyword .whereWord then do
    advance
    return some (← conditionList)
  else return none

/-! ## References -/

/-- What follows the dot of a reference. -/
def dotted : Action Selector := do
  match ← peek with
  | .name id => do
    advance
    return .id id
  | .sign .asterisk => do
    advance
    return .wildcard
  | .keyword .selfWord => do
    advance
    return .self
  | _ => unexpected .selector

/-- The selection of a reference. -/
def selector : Action Selector := do
  match ← peek with
  | .sign .dot => do
    advance
    dotted
  | .sign .leftParen => do
    advance
    let c ← conditionList
    sign .rightParen
    return .conditions c
  | _ => return .all

/-- An entity and a selection of its rows. -/
def reference : Action Reference := do
  let entity ← name .entity
  let selector ← selector
  return ⟨entity, selector⟩

/-- A reference or `SELF`. -/
def subject : Action Subject := do
  match ← peek with
  | .keyword .selfWord => do
    advance
    return .self
  | .name _ => return .reference (← reference)
  | _ => unexpected .entityOrSelf

/-- Names after the first, each after a comma. The first argument bounds their number. -/
def moreNames : Nat → Action (List String)
  | 0 => return []
  | bound + 1 => do
    if (← peek) = .sign .comma then do
      advance
      let s ← name .field
      return s :: (← moreNames bound)
    else return []

/-- A projection, if there is one. -/
def projection : Action Projection := do
  if (← peek) = .sign .colon then do
    advance
    if (← peek) = .sign .asterisk then do
      advance
      return .all
    else do
      let first ← name .fieldOrAsterisk
      let others ← moreNames ((← get).rest.length + 1)
      return .fields (first :: others)
  else return .all

/-- One setting. -/
def setting : Action Setting := do
  let field ← name .field
  sign .equal
  let value ← literal
  return ⟨field, value⟩

/-- Settings after the first, each after a comma. The first argument bounds their number. -/
def moreSettings : Nat → Action (List Setting)
  | 0 => return []
  | bound + 1 => do
    if (← peek) = .sign .comma then do
      advance
      let s ← setting
      return s :: (← moreSettings bound)
    else return []

/-- Settings with commas between them. -/
def settings : Action (List Setting) := do
  let first ← setting
  let others ← moreSettings ((← get).rest.length + 1)
  return first :: others

/-! ## Statements -/

/-- A GET statement after its verb. -/
def getStatement : Action Statement := do
  let target ← reference
  let projection ← projection
  let condition ← whereClause
  return .get target projection condition

/-- A CHECK statement after its verb. -/
def checkStatement : Action Statement := do
  let subject ← subject
  keyword .canWord
  let permission ← name .permission
  keyword .onWord
  let resource ← reference
  return .check subject permission resource

/-- A GRANT statement after its verb. -/
def grantStatement : Action Statement := do
  let permission ← name .permission
  keyword .onWord
  let resource ← reference
  keyword .toWord
  let subject ← subject
  return .grant permission resource subject

/-- A REVOKE statement after its verb. -/
def revokeStatement : Action Statement := do
  let permission ← name .permission
  keyword .onWord
  let resource ← reference
  keyword .fromWord
  let subject ← subject
  return .revoke permission resource subject

/-- An UPDATE statement after its verb. -/
def updateStatement : Action Statement := do
  let target ← reference
  keyword .setWord
  let settings ← settings
  let condition ← whereClause
  return .update target settings condition

/-- A DELETE statement after its verb. -/
def deleteStatement : Action Statement := do
  let target ← reference
  let condition ← whereClause
  return .delete target condition

/-- The part of a statement after its verb, for the words that are verbs. -/
def statementAfter? : Keyword → Option (Action Statement)
  | .get => some getStatement
  | .check => some checkStatement
  | .grant => some grantStatement
  | .revoke => some revokeStatement
  | .update => some updateStatement
  | .delete => some deleteStatement
  | _ => none

/-- **A whole statement**, up to the end. -/
def statement : Action Statement := do
  match ← peek with
  | .keyword k =>
    match statementAfter? k with
    | some body => do
      advance
      let s ← body
      expect .finish
      return s
    | none => unexpected .statement
  | _ => unexpected .statement

/-- What an action on a parser gives, and the parser after it. -/
def run {α : Type} (action : Action α) (p : Parser) : Except ParseError α × Parser :=
  match EStateM.run action p with
  | .ok a p => (.ok a, p)
  | .error e p => (.error e, p)

end Parser

namespace Statement

/-- **The statement that a sequence of tokens and faults writes.** -/
def parse (items : List Token.Item) : Except ParseError Statement := do
  let p ← Parser.ofItems items
  (Parser.run Parser.statement p).1

/-- **The statement that a text writes.** -/
def read (text : String) : Except ParseError Statement :=
  parse (tokenize text)

end Statement

end Warrant
