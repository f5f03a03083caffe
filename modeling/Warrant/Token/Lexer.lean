import Warrant.Number.Whole
import Warrant.Text.Classes
import Warrant.Token.Basic

/-!
# From text to tokens

Blanks and comments separate tokens; a comment runs from two hyphens to the end of the line. What
the characters at the start of a token make is decided by `Lexeme.scan` from these characters
alone; places are counted afterwards, over the characters that were used.

## Main definitions

- `Trivia.length` — how many characters of blanks and comments a text starts with
- `Lexeme.scan` — the token or the fault at the front of a text, and its length
- `Lexer.next` — the next token with its place, and where the lexer stands then
- `tokenize` — all tokens of a text, up to the end or to the first fault
- `Feed` — a lexer that is asked for one item after the other
-/

namespace Warrant

/-! ## Trivia -/

/-- How many characters at the front are blanks and comments. The flag tells whether the front
    lies inside a comment. -/
def Trivia.lengthFrom : Bool → List Char → Nat
  | _, [] => 0
  | true, c :: rest => 1 + if c = '\n' then lengthFrom false rest else lengthFrom true rest
  | false, '-' :: '-' :: rest => 2 + lengthFrom true rest
  | false, c :: rest => if Text.isBlank c then 1 + lengthFrom false rest else 0

/-- How many characters at the front are blanks and comments. -/
def Trivia.length (cs : List Char) : Nat :=
  lengthFrom false cs

/-! ## Lexemes -/

/-- What the characters at the front of a text make. -/
inductive Lexeme
  /-- A token of some characters. -/
  | token (kind : Token.Kind) (length : Nat)
  /-- A fault after `place` characters, found when `length` characters had been used. -/
  | fault (fault : LexFault) (place : Nat) (length : Nat)

namespace Lexeme

/-- The characters that names start with. -/
def startsName (c : Char) : Bool :=
  c.isAlpha || c = '_'

/-- The characters that names go on with. -/
def continuesName (c : Char) : Bool :=
  c.isAlphanum || c = '_'

/-- A reserved word or a name. -/
def word (cs : List Char) : Lexeme :=
  let text := cs.takeWhile continuesName
  let s := String.ofList text
  match Keyword.ofText? s with
  | some k => .token (.keyword k) text.length
  | none => .token (.name s) text.length

/-- The character that an escaped character stands for. -/
def unescape? (c : Char) : Option Char :=
  if c = '"' then some '"'
  else if c = '\\' then some '\\'
  else if c = 'n' then some '\n'
  else if c = 't' then some '\t'
  else none

/-- A string whose first `n` characters have been used and stand for `value`, in reverse. -/
def string (n : Nat) (value : List Char) : List Char → Lexeme
  | [] => .fault .unterminatedString 0 n
  | ['\\'] => .fault .unterminatedString 0 (n + 1)
  | '\\' :: c :: rest =>
    match unescape? c with
    | some u => string (n + 2) (u :: value) rest
    | none => .fault (.invalidEscape c) n (n + 1)
  | c :: rest =>
    if c = '"' then .token (.string (String.ofList value.reverse)) (n + 1)
    else string (n + 1) (c :: value) rest

/-- The point and the digits of a fraction at the front; nothing unless a digit follows the
    point. -/
def fraction : List Char → List Char
  | '.' :: rest =>
    let ds := rest.takeWhile Text.isDigit
    if ds.isEmpty then [] else '.' :: ds
  | _ => []

/-- The sign of an exponent at the front. -/
def exponentSign : List Char → List Char
  | '+' :: _ => ['+']
  | '-' :: _ => ['-']
  | _ => []

/-- The letter, the sign and the digits of an exponent at the front; nothing unless a digit
    follows. -/
def exponent : List Char → List Char
  | [] => []
  | c :: rest =>
    if c = 'e' || c = 'E' then
      let sign := exponentSign rest
      let ds := (rest.drop sign.length).takeWhile Text.isDigit
      if ds.isEmpty then [] else c :: (sign ++ ds)
    else []

/-- The exponent that the characters of an exponent write. -/
def exponentValue (cs : List Char) : Int :=
  match cs.drop 1 with
  | '-' :: ds => -(Text.readDecimal ds)
  | '+' :: ds => Text.readDecimal ds
  | ds => Text.readDecimal ds

/-- The value of a number with a fraction or an exponent, if it is finite. -/
def floatValue? (negative : Bool) (digits fraction exponent : List Char) : Option Binary64 :=
  let places := fraction.drop 1
  let x := Binary64.ofDecimal negative (Text.readDecimal (digits ++ places))
    (exponentValue exponent - places.length)
  if x.isFinite then some x else none

/-- The value of a number without fraction and exponent, if it fits into 64 bits. -/
def integerValue? (negative : Bool) (digits : List Char) : Option Int64 :=
  let n : Int := Text.readDecimal digits
  word64? (if negative then -n else n)

/-- A number: an optional sign, digits, and perhaps a fraction and an exponent. -/
def number (cs : List Char) : Lexeme :=
  let sign := if cs.head? = some '-' then ['-'] else []
  let unsigned := cs.drop sign.length
  let digits := unsigned.takeWhile Text.isDigit
  let rest := unsigned.drop digits.length
  let fractionPart := fraction rest
  let exponentPart := exponent (rest.drop fractionPart.length)
  let text := sign ++ digits ++ fractionPart ++ exponentPart
  let kind? : Option Token.Kind :=
    if fractionPart.isEmpty && exponentPart.isEmpty then
      (integerValue? (!sign.isEmpty) digits).map .integer
    else
      (floatValue? (!sign.isEmpty) digits fractionPart exponentPart).map .float
  match kind? with
  | some kind => .token kind text.length
  | none => .fault (.invalidNumber (String.ofList text)) 0 text.length

/-- The sign that a character is on its own. -/
def sign? (c : Char) : Option Sign :=
  if c = '(' then some .leftParen
  else if c = ')' then some .rightParen
  else if c = ',' then some .comma
  else if c = '.' then some .dot
  else if c = '*' then some .asterisk
  else if c = ':' then some .colon
  else if c = '=' then some .equal
  else none

/-- **What the front of a text makes**, when no blanks or comments stand there. -/
def scan : List Char → Lexeme
  | [] => .token .finish 0
  | c :: rest =>
    match sign? c with
    | some s => .token (.sign s) 1
    | none =>
      if c = '!' then
        if rest.head? = some '=' then .token (.sign .different) 2
        else .fault (.unexpectedCharacter '!') 0 1
      else if c = '"' then string 1 [] rest
      else if c = '-' && rest.head?.any Text.isDigit then number (c :: rest)
      else if Text.isDigit c then number (c :: rest)
      else if startsName c then word (c :: rest)
      else .fault (.unexpectedCharacter c) 0 0

end Lexeme

/-! ## The lexer -/

/-- A lexer: the characters still to be read, and the place where they start. -/
structure Lexer where
  rest : List Char
  position : Position

/-- A token or a fault, as the lexer hands them out. -/
abbrev Token.Item := Except LexError Token

namespace Lexer

/-- A lexer at the start of a text. -/
def ofString (s : String) : Lexer :=
  ⟨s.toList, .start⟩

/-- The lexer some characters further on. -/
def advance (l : Lexer) (n : Nat) : Lexer :=
  ⟨l.rest.drop n, l.position.after (l.rest.take n)⟩

/-- **The next token or fault**, and the lexer after it. At the end of the text the end is handed
    out again and again. -/
def next (l : Lexer) : Token.Item × Lexer :=
  let l := l.advance (Trivia.length l.rest)
  match Lexeme.scan l.rest with
  | .token kind n => (.ok ⟨kind, String.ofList (l.rest.take n), l.position⟩, l.advance n)
  | .fault fault place n => (.error ⟨(l.advance place).position, fault⟩, l.advance n)

/-- Up to `bound` tokens, the last being the end or a fault. -/
def items : Nat → Lexer → List Token.Item
  | 0, _ => []
  | bound + 1, l =>
    match l.next with
    | (.error e, _) => [.error e]
    | (.ok token, l) => if token.kind = .finish then [.ok token] else .ok token :: items bound l

end Lexer

/-- **All tokens of a text**, up to the end or to the first fault. Every token but the end has a
    character at least, so there is at most one token more than characters. -/
def tokenize (s : String) : List Token.Item :=
  (Lexer.ofString s).items (s.toList.length + 1)

/-! ## One item after the other -/

/-- Whether nothing comes after an item: it is the end or a fault. -/
def Token.Item.isLast : Token.Item → Bool
  | .ok token => token.kind = .finish
  | .error _ => true

/-- A lexer that is asked for one item after the other, and whether it has handed out the last. -/
structure Feed where
  lexer : Lexer
  isFinished : Bool

namespace Feed

/-- The items of a text. -/
def ofString (s : String) : Feed :=
  ⟨.ofString s, false⟩

/-- **The next item**, unless the last has been handed out, and the feed after it. -/
def next (f : Feed) : Option Token.Item × Feed :=
  if f.isFinished then (none, f)
  else
    let (item, lexer) := f.lexer.next
    (some item, ⟨lexer, item.isLast⟩)

/-- What is answered when so many items have been asked for before. -/
def answer : Nat → Feed → Option Token.Item
  | 0, f => f.next.1
  | n + 1, f => answer n f.next.2

end Feed

end Warrant
