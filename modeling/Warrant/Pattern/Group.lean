import Warrant.Pattern.Bracket
import Warrant.Text.Classes

/-!
# Patterns: groups and repetition

A pattern is a choice between branches, and a branch is a row of items: atoms, bracket expressions
and groups, each perhaps repeated, and directives, which set flags for the rest of their group.

## Main definitions

- `Pattern.Opening.read?` — what the start of a group says
- `Pattern.branches?` — the depth of a choice and the text after it
- `Pattern.isPattern` — whether a text is a pattern
-/

namespace Warrant.Pattern

/-- Whether a text may name a group. -/
def isGroupName : List Char → Bool
  | [] => false
  | c :: rest =>
    (c = '_' || Text.isAlphabetic c) &&
      rest.all fun c => ['_', '.', '[', ']'].contains c || Text.isAlphanumeric c

/-- What the start of a group says. -/
inductive Opening
  /-- Flags for the rest of the group that encloses them. -/
  | directive (m : Mode)
  /-- A group that is read in a mode. -/
  | group (m : Mode)
  /-- A group with a name. -/
  | named (name : List Char)

namespace Opening

/-- The name of a group and what follows it, by the text after the bracket before the name. -/
def readName? (cs : List Char) : Option (Opening × List Char) :=
  match cs.dropWhile (· ≠ '>') with
  | _ :: rest =>
    let name := cs.takeWhile (· ≠ '>')
    if isGroupName name then some (named name, rest) else none
  | [] => none

/-- The flags of a group or of a directive and what follows them, by the text after the question
    mark. A directive without flags is none. -/
def readFlags? (m : Mode) (cs : List Char) : Option (Opening × List Char) :=
  let isFlag (c : Char) : Bool := c ≠ ':' && c ≠ ')'
  let flags := cs.takeWhile isFlag
  if areFlags flags then
    match cs.dropWhile isFlag with
    | ':' :: rest => some (group (m.withFlags flags), rest)
    | ')' :: rest => if flags.isEmpty then none else some (directive (m.withFlags flags), rest)
    | _ => none
  else none

/-- What the start of a group says and what follows it, by the text after the parenthesis. -/
def read? (m : Mode) : List Char → Option (Opening × List Char)
  | '?' :: 'P' :: '<' :: rest => readName? rest
  | '?' :: '<' :: rest => readName? rest
  | '?' :: rest => readFlags? m rest
  | cs => some (group m, cs)

end Opening

/-- An item of a branch. -/
inductive Item
  /-- What can be matched, and so repeated; it is nested so deep. -/
  | part (depth : Nat)
  /-- Flags for what follows. -/
  | directive

/-- How deep an item is nested. -/
def Item.depth : Item → Nat
  | part depth => depth
  | directive => 0

/-- How deep a row of items is nested. -/
def branchDepth (items : List Item) : Nat :=
  rowDepth (items.map Item.depth)

/-- What follows the question mark that makes a repetition match as little as possible. -/
def dropLazy : List Char → List Char
  | '?' :: rest => rest
  | cs => cs

/-- How deep a choice is nested, with the names of all groups so far and what follows the choice:
    a closing parenthesis or nothing. `done` holds the depths of the branches before this one,
    `items` the items of this one, the latest first. Each step uses up a character, so the length
    of the text is enough fuel. -/
def branches? : Nat → Mode → List (List Char) → List Nat → List Item → List Char →
    Option (Nat × List (List Char) × List Char)
  | 0, _, _, _, _, _ => none
  | fuel + 1, m, names, done, items, cs =>
    match m.skip cs with
    | [] => some (rowDepth (branchDepth items :: done), names, [])
    | ')' :: rest => some (rowDepth (branchDepth items :: done), names, ')' :: rest)
    | '|' :: rest => branches? fuel m names (branchDepth items :: done) [] rest
    | '[' :: rest => do
      let (depth, rest) ← bracket? m rest
      branches? fuel m names done (.part depth :: items) rest
    | '(' :: rest => do
      let grouped (inner : Mode) (names : List (List Char)) (rest : List Char) := do
        match ← branches? fuel inner names [] [] rest with
        | (depth, names, _ :: rest) =>
          branches? fuel m names done (.part (depth + 1) :: items) rest
        | _ => none
      match ← Opening.read? m (m.skip rest) with
      | (.directive m, rest) => branches? fuel m names done (.directive :: items) rest
      | (.group inner, rest) => grouped inner names rest
      | (.named name, rest) => if names.contains name then none else grouped m (name :: names) rest
    | c :: rest =>
      if ['?', '*', '+'].contains c then
        match items with
        | .part depth :: items =>
          branches? fuel m names done (.part (depth + 1) :: items) (dropLazy rest)
        | _ => none
      else if c = '\x7b' then none
      else do
        let (atom, rest) ← Atom.read? m (c :: rest)
        if atom.isSupported m then branches? fuel m names done (.part 0 :: items) rest else none

/-- How deep a pattern may be nested. -/
def maxDepth : Nat := 250

/-- **Whether a text is a pattern.** A repetition counted in braces is none: it cannot stand where
    patterns stand here, between braces. -/
def isPattern (cs : List Char) : Bool :=
  match branches? (cs.length + 1) {} [] [] [] cs with
  | some (depth, _, []) => depth ≤ maxDepth
  | _ => false

end Warrant.Pattern
