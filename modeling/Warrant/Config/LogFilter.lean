import Warrant.Pattern.Group
import Warrant.Text.Classes
import Warrant.Text.Digits
import Warrant.Text.Parts

/-!
# Log filters

A log filter lists directives, separated by commas. A directive names a level, or a target and a
span, or both: `info`, `store=debug`, `store[commit]=trace`, `[begin{id=1}]=off`. The value of a
field is a number or a pattern.

## Main definitions

- `LogFilter.isLevel` — the levels
- `LogFilter.isField` — the fields of spans
- `LogFilter.Directive` — a directive between its blanks
- `LogFilter.Directive.isValid` — the directives
- `LogFilter.accepts` — the filters
-/

namespace Warrant.LogFilter

/-! ## Levels -/

/-- The names of the levels. -/
def levelNames : List String :=
  ["off", "error", "warn", "info", "debug", "trace"]

/-- The number that a text of digits writes; a plus sign may stand before them. -/
def number? (cs : List Char) : Option Nat :=
  let digits := if cs.head? = some '+' then cs.tail else cs
  if !digits.isEmpty && digits.all Text.isDigit then some (Text.readDecimal digits) else none

/-- Whether a text is a level: a name in any case of letters, or a number from zero to five. -/
def isLevel (cs : List Char) : Bool :=
  match number? cs with
  | some n => n ≤ 5
  | none => levelNames.contains (String.ofList (cs.map Char.toLower))

/-! ## Fields -/

/-- What is left after the sign that may stand at the front. -/
def dropSign : List Char → List Char
  | '+' :: rest => rest
  | '-' :: rest => rest
  | cs => cs

/-- Whether a text may follow the digits of a number: nothing, or a power of ten. -/
def isExponent : List Char → Bool
  | [] => true
  | c :: rest =>
    let digits := dropSign rest
    (c = 'e' || c = 'E') && !digits.isEmpty && digits.all Text.isDigit

/-- Whether a text is a decimal number: digits, at least one of them, around a point that may be
    missing, then perhaps a power of ten. -/
def isDecimal (cs : List Char) : Bool :=
  match cs.dropWhile Text.isDigit with
  | '.' :: rest =>
    (cs.head?.any Text.isDigit || rest.head?.any Text.isDigit) &&
      isExponent (rest.dropWhile Text.isDigit)
  | rest => cs.head?.any Text.isDigit && isExponent rest

/-- Whether a text writes a number. -/
def isNumber (cs : List Char) : Bool :=
  let magnitude := dropSign cs
  ["inf", "infinity", "nan"].contains (String.ofList (magnitude.map Char.toLower)) ||
    isDecimal magnitude

/-- **Whether a text is a field:** a name, perhaps with the value behind an equals sign. A second
    equals sign ends the value, and what follows it is not looked at. -/
def isField (cs : List Char) : Bool :=
  match Text.parts '=' cs with
  | _ :: value :: _ => isNumber value || Pattern.isPattern value
  | _ => true

/-! ## Directives -/

/-- A directive between its blanks. -/
structure Directive where
  /-- The blanks before the directive. -/
  lead : List Char
  /-- The directive itself. -/
  text : List Char
  /-- The blanks after the directive. -/
  trail : List Char

/-- Whether a target may start with a character. -/
def startsTarget (c : Char) : Bool :=
  Text.isAlphanumeric c || c = '-' || c = ':' || c = '_'

/-- What is left from the first character on that is one of the given ones. -/
def upTo (stops : List Char) (cs : List Char) : List Char :=
  cs.dropWhile fun c => !stops.contains c

namespace Directive

/-- A text with its blanks set apart. -/
def ofChars (cs : List Char) : Directive :=
  let back := cs.dropWhile Text.isBlank
  let text := (back.reverse.dropWhile Text.isBlank).reverse
  ⟨cs.takeWhile Text.isBlank, text, back.drop text.length⟩

/-- Whether there are blanks around a directive. -/
def isPadded (d : Directive) : Bool :=
  !d.lead.isEmpty || !d.trail.isEmpty

/-- The part of a directive that takes the place of `piece`, after which the directive goes on
    with `rest`. The place is counted in bytes from the first character that is not blank, and the
    cut is made in the directive with its blanks; so each byte of blanks before the directive moves
    it one byte to the left. -/
def cut? (d : Directive) (piece rest : List Char) : Option (List Char) := do
  let front := d.text.take (d.text.length - (piece ++ rest).length)
  let back ← Text.dropBytes? (Text.byteSize front) (d.lead ++ d.text)
  Text.takeBytes? (Text.byteSize piece) back

/-- Whether a text may follow the equals sign of a directive. No level at all is every level. A
    directive with blanks around it has no level. -/
def endsWithLevel (d : Directive) (cs : List Char) : Bool :=
  !d.isPadded && (cs.isEmpty || isLevel cs)

/-- Whether a text may follow the closing bracket of a span. -/
def followsSpan (d : Directive) : List Char → Bool
  | [] => true
  | '=' :: level => d.endsWithLevel level
  | _ => false

/-- Whether a text may follow the opening brace of a field: the field, which is not empty, and the
    brackets that close it and its span. -/
def followsBrace (d : Directive) (cs : List Char) : Bool :=
  let field := cs.takeWhile (· ≠ '\x7d')
  match cs.dropWhile (· ≠ '\x7d') with
  | brace :: ']' :: rest =>
    !field.isEmpty && (d.cut? field (brace :: ']' :: rest)).any isField && d.followsSpan rest
  | _ => false

/-- Whether a text may follow the opening bracket of a span: a name, then perhaps one field in
    braces. -/
def followsBracket (d : Directive) (cs : List Char) : Bool :=
  match upTo [']', '\x7b'] cs with
  | ']' :: rest => d.followsSpan rest
  | '\x7b' :: rest => d.followsBrace rest
  | _ => false

/-- **Whether a text between its blanks is a directive.** -/
def isValid (d : Directive) : Bool :=
  match d.text with
  | [] => false
  | '[' :: rest => d.followsBracket rest
  | c :: rest =>
    startsTarget c &&
      match upTo ['=', '['] rest with
      | '=' :: level => d.endsWithLevel level
      | '[' :: rest => d.followsBracket rest
      | _ => true

end Directive

/-! ## Filters -/

/-- **Whether a text is a filter.** Empty directives do not count. -/
def accepts (filter : String) : Bool :=
  (Text.parts ',' filter.toList).all fun cs => cs.isEmpty || (Directive.ofChars cs).isValid

end Warrant.LogFilter
