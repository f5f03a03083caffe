import Warrant.Pattern.Basic

/-!
# Patterns: brackets

A bracket expression is a set of characters: a row of members between brackets, each of them a
character, a range, an escape, a named set such as `[:digit:]`, or a bracket expression of its
own. Rows are joined by `&&`, `--` and `~~` to intersections and differences of sets.

A row may start with hyphens, which stand for themselves, and a closing bracket at its very start
stands for itself too.

## Main definitions

- `Pattern.member?` — the text after a character, an escape or a range
- `Pattern.namedSet?` — the text after a named set
- `Pattern.bracket?` — the depth of a bracket expression and the text after it
-/

namespace Warrant.Pattern

/-- The names of the named sets. -/
def setNames : List String :=
  ["alnum", "alpha", "ascii", "blank", "cntrl", "digit", "graph", "lower", "print", "punct",
    "space", "upper", "word", "xdigit"]

/-- Whether a named set is complemented, and what follows it, by the text after its first bracket.
    No layout may stand inside. -/
def namedSet? : List Char → Option (Bool × List Char)
  | ':' :: rest =>
    let complement := rest.head? = some '^'
    let rest := if complement then rest.tail else rest
    match rest.dropWhile (· ≠ ':') with
    | ':' :: ']' :: after =>
      if setNames.contains (String.ofList (rest.takeWhile (· ≠ ':'))) then some (complement, after)
      else none
    | _ => none
  | _ => none

/-- Whether a mode has room for a named set: with Unicode on, letters must not ask for both of
    their cases; with Unicode off, a complement could match a part of a character. -/
def allowsNamedSet (m : Mode) (complement : Bool) : Bool :=
  if m.unicode then !m.ignoreCase else !complement

/-- The character that a look past layout finds. Of a comment the hash sign is passed, and its
    text is looked at. -/
def peek? (m : Mode) (cs : List Char) : Option Char :=
  if m.verbose then
    match cs.dropWhile Text.isBlank with
    | '#' :: rest => (rest.dropWhile Text.isBlank).head?
    | cs => cs.head?
  else cs.head?

/-- Whether a hyphen stands for a range, by the text after it: not before the closing bracket and
    not before a second hyphen. -/
def startsRange (m : Mode) (cs : List Char) : Bool :=
  peek? m cs ≠ some ']' && peek? m cs ≠ some '-'

/-- Whether two atoms are the ends of a range that a mode has room for. -/
def isRange (m : Mode) : Atom → Atom → Bool
  | .literal first isByte, .literal last isByte' =>
    Atom.isMember m (.literal first isByte) && Atom.isMember m (.literal last isByte')
      && first ≤ last
  | _, _ => false

/-- What follows the character, the escape or the range at the front of a text. -/
def member? (m : Mode) (cs : List Char) : Option (List Char) := do
  let (first, rest) ← Atom.readMember? m cs
  let single := if first.isMember m then some (m.skip rest) else none
  match m.skip rest with
  | '-' :: after =>
    if startsRange m after then
      let (last, rest) ← Atom.readMember? m (m.skip after)
      if isRange m first last then return rest
      none
    else single
  | _ => single

/-- What follows the first bracket of a set and the sign of complement that may stand there. With
    Unicode off, a complement could match a part of a character. -/
def bracketStart? (m : Mode) (cs : List Char) : Option (List Char) :=
  match m.skip cs with
  | '^' :: rest => if m.unicode then some rest else none
  | rest => some rest

/-- The depth of the sets joined so far and the row after them. -/
def joinedDepth : Option Nat → List Nat → Nat
  | none, row => rowDepth row
  | some left, row => max left (rowDepth row) + 1

/-- The depth of the set that a closing bracket ends, and what follows the bracket. The row holds
    the depths of the members read since the last sign that joins sets, and `left` the depth of the
    sets before that sign; `start` tells that only hyphens have been read so far. Each step uses
    up a character, so the length of the text is enough fuel. -/
def members? (m : Mode) :
    Nat → Bool → List Nat → Option Nat → List Char → Option (Nat × List Char)
  | 0, _, _, _, _ => none
  | fuel + 1, start, row, left, cs =>
    match m.skip cs with
    | [] => none
    | c :: rest =>
      if start && (c = '-' || (c = ']' && row.isEmpty)) then
        if (Atom.ofChar c).isMember m then members? m fuel (c = '-') (0 :: row) left rest else none
      else if c = ']' then some (joinedDepth left row, rest)
      else if c = '[' then
        match namedSet? rest with
        | some (complement, rest) =>
          if allowsNamedSet m complement then members? m fuel false (0 :: row) left rest else none
        | none => do
          let (depth, rest) ← members? m fuel true [] none (← bracketStart? m rest)
          members? m fuel false ((depth + 1) :: row) left rest
      else if ['&', '-', '~'].contains c && rest.head? = some c then
        members? m fuel false [] (some (joinedDepth left row)) rest.tail
      else do
        members? m fuel false (0 :: row) left (← member? m (c :: rest))

/-- The depth of a bracket expression and what follows it, by the text after its first bracket. -/
def bracket? (m : Mode) (cs : List Char) : Option (Nat × List Char) := do
  let (depth, rest) ← members? m (cs.length + 1) true [] none (← bracketStart? m cs)
  return (depth + 1, rest)

end Warrant.Pattern
