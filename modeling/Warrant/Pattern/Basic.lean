import Warrant.Text.Classes
import Warrant.Text.Digits

/-!
# Patterns: modes and atoms

A pattern is a regular expression over texts. It is read in a *mode*, which flags inside the
pattern change. The atoms of a pattern are single characters, escapes, and the signs that stand
for places between characters.

A pattern is matched byte by byte, and the matcher knows no classes of characters but those of
ASCII. So a mode has room only for what can be matched that way: with Unicode on, nothing that
asks for the letters, digits or blanks of all scripts or for their upper and lower case; with
Unicode off, nothing that could match a part of a character.

## Main definitions

- `Pattern.Mode` — the mode in which a part of a pattern is read
- `Pattern.Mode.skip` — the text behind layout that a verbose pattern may hold
- `Pattern.Atom` — what one character or one escape stands for
- `Pattern.Atom.isSupported`, `Pattern.Atom.isMember` — whether a mode has room for an atom,
  between brackets and elsewhere
- `Pattern.rowDepth` — how deep a row of parts is nested
-/

namespace Warrant.Pattern

/-- The mode in which a part of a pattern is read. -/
structure Mode where
  /-- Letters match in upper and in lower case. -/
  ignoreCase : Bool := false
  /-- Characters are matched as a whole. -/
  unicode : Bool := true
  /-- Blanks and comments may be set between the signs of the pattern. -/
  verbose : Bool := false
  deriving DecidableEq

/-- The flags that a pattern may set. Those for lines and for greed change what is matched, and
    never whether the pattern is one. -/
def flagLetters : List Char :=
  ['i', 'm', 's', 'U', 'u', 'R', 'x']

/-- Whether a text sets flags: letters that are switched on, then perhaps a hyphen and letters
    that are switched off, none of them twice. -/
def areFlags (cs : List Char) : Bool :=
  cs.all (fun c => flagLetters.contains c || c = '-') && decide cs.Nodup && cs.getLast? ≠ some '-'

/-- The mode after flags. A letter behind the hyphen is switched off. -/
def Mode.withFlags (m : Mode) (flags : List Char) : Mode :=
  let on := flags.takeWhile (· ≠ '-')
  let update (letter : Char) (before : Bool) :=
    on.contains letter || (before && !flags.contains letter)
  { ignoreCase := update 'i' m.ignoreCase
    unicode := update 'u' m.unicode
    verbose := update 'x' m.verbose }

/-- What is left after blanks and comments. A comment runs from a hash sign to the end of the
    line; the flag tells whether the text starts inside one. -/
def dropLayout : Bool → List Char → List Char
  | _, [] => []
  | true, c :: rest => dropLayout (c ≠ '\n') rest
  | false, c :: rest =>
    if Text.isBlank c then dropLayout false rest
    else if c = '#' then dropLayout true rest
    else c :: rest

/-- What is left after the layout that the mode allows. -/
def Mode.skip (m : Mode) (cs : List Char) : List Char :=
  if m.verbose then dropLayout false cs else cs

/-- What one character or one escape stands for. -/
inductive Atom
  /-- A character, by its code point. The flag marks one that is written as a byte. -/
  | literal (code : Nat) (isByte : Bool)
  /-- Any character. -/
  | any
  /-- The start or the end of the text or of a line. -/
  | anchor
  /-- The border of a word. -/
  | wordBorder
  /-- A digit, a blank or a character of words; the flag turns it into everything else. -/
  | shorthand (complement : Bool)

namespace Atom

/-- Whether a mode has room for an atom. With Unicode off, a byte beyond ASCII or a complement
    could match a part of a character. -/
def isSupported (m : Mode) : Atom → Bool
  | literal code isByte => if m.unicode then !m.ignoreCase else !isByte || code < 0x80
  | any => m.unicode
  | anchor => true
  | wordBorder => !m.unicode
  | shorthand complement => !m.unicode && !complement

/-- Whether a mode has room for an atom between brackets. With Unicode off, only ASCII may stand
    there. -/
def isMember (m : Mode) : Atom → Bool
  | literal code _ => if m.unicode then !m.ignoreCase else code < 0x80
  | shorthand complement => !m.unicode && !complement
  | _ => false

/-- A character that stands for itself. -/
def ofChar (c : Char) : Atom :=
  literal c.toNat false

/-- The control characters that letters stand for after a backslash. -/
def controls : List (Char × Nat) :=
  [('a', 0x7), ('f', 0xc), ('t', 0x9), ('n', 0xa), ('r', 0xd), ('v', 0xb)]

/-- What a character stands for after a backslash. A sign of ASCII stands for itself there. -/
def escaped? (c : Char) : Option Atom :=
  if ['d', 's', 'w'].contains c then some (shorthand false)
  else if ['D', 'S', 'W'].contains c then some (shorthand true)
  else if ['A', 'z'].contains c then some anchor
  else if ['b', 'B', '<', '>'].contains c then some wordBorder
  else if c.toNat < 0x80 && !c.isAlphanum then some (ofChar c)
  else (controls.lookup c).map (literal · false)

/-- How many hexadecimal digits write a code point after a letter. -/
def codeWidth? (c : Char) : Option Nat :=
  if c = 'x' then some 2 else if c = 'u' then some 4 else if c = 'U' then some 8 else none

/-- The next `n` characters of a text, with layout before each of them, and what follows. -/
def next? (m : Mode) : Nat → List Char → Option (List Char × List Char)
  | 0, cs => some ([], cs)
  | n + 1, cs =>
    match m.skip cs with
    | [] => none
    | c :: rest => (next? m n rest).map fun (taken, rest) => (c :: taken, rest)

/-- The atom that an escape stands for, by the text after its backslash, and what follows. -/
def escape? (m : Mode) : List Char → Option (Atom × List Char)
  | [] => none
  | c :: rest =>
    match codeWidth? c with
    | none => (escaped? c).map (·, rest)
    | some width => do
      let (digits, rest) ← next? m width rest
      let code ← Text.readHex? digits
      if code.isValidChar then return (literal code (width = 2), rest)
      none

/-- The atom at the front of a text between brackets, and what follows. -/
def readMember? (m : Mode) : List Char → Option (Atom × List Char)
  | [] => none
  | '\\' :: rest => escape? m rest
  | c :: rest => some (ofChar c, rest)

/-- The atom at the front of a text outside of brackets, and what follows. -/
def read? (m : Mode) : List Char → Option (Atom × List Char)
  | '.' :: rest => some (any, rest)
  | '^' :: rest => some (anchor, rest)
  | '$' :: rest => some (anchor, rest)
  | cs => readMember? m cs

end Atom

/-- How deep a row of parts is nested, given how deep its parts are: a row of several parts is
    itself a level. -/
def rowDepth : List Nat → Nat
  | [] => 0
  | [depth] => depth
  | depths => depths.foldl max 0 + 1

end Warrant.Pattern
