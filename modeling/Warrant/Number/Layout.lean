import Warrant.Number.Shortest

/-!
# Texts of floating-point numbers

How the shortest decimal of a number is laid out: with all its places when the leading digit is
near the point, and with an exponent otherwise.

## Main definitions

- `FloatLayout` — where positional notation begins and ends, and how a halfway case goes
- `FloatLayout.write` — the text of a number
-/

namespace Warrant

/-- The choices that differ from one written form of numbers to another. -/
structure FloatLayout where
  /-- The lowest exponent of the leading digit that is written positionally. -/
  lowest : Int
  /-- The highest exponent of the leading digit that is written positionally. -/
  highest : Int
  /-- The choice between two equally near shortest decimals. -/
  halfway : HalfwayRule
  /-- Whether a positive exponent has a sign. -/
  plus : Bool

namespace FloatLayout

/-- The digits of a decimal without trailing zeros. -/
def significant (n : Nat) : List Char :=
  ((Text.decimal n).reverse.dropWhile (· == '0')).reverse

/-- All places of the number whose first digit has the exponent `leading`. A whole number gets
    one zero after the point. -/
def positional (ds : List Char) (leading : Int) : List Char :=
  if leading < 0 then
    '0' :: '.' :: (List.replicate (-leading - 1).toNat '0' ++ ds)
  else
    let whole := leading.toNat + 1
    let fraction := ds.drop whole
    ds.take whole ++ List.replicate (whole - ds.length) '0' ++ '.' ::
      (if fraction.isEmpty then ['0'] else fraction)

/-- One digit before the point, the others after it, and the exponent of the first. -/
def scientific (plus : Bool) (ds : List Char) (leading : Int) : List Char :=
  ds.take 1 ++ (if ds.length ≤ 1 then [] else '.' :: ds.drop 1) ++
    'e' :: ((if plus && 0 ≤ leading then ['+'] else []) ++ (toString leading).toList)

/-- The characters of a finite magnitude. -/
def magnitude (l : FloatLayout) (x : Binary64) : List Char :=
  if x.magnitude = 0 then ['0', '.', '0']
  else
    let d := x.shortest l.halfway
    let leading : Int := (Text.decimal d.digits).length - 1 + d.exponent
    if l.lowest ≤ leading && leading ≤ l.highest then positional (significant d.digits) leading
    else scientific l.plus (significant d.digits) leading

/-- **The text of a number.** Infinities and NaN have names; the sign of a zero is kept. -/
def write (l : FloatLayout) (x : Binary64) : String :=
  if x.isNaN then "NaN"
  else
    let unsigned := if x.isFinite then l.magnitude x else ['i', 'n', 'f']
    String.ofList (if x.isNegative then '-' :: unsigned else unsigned)

/-- The layout of statements and messages: positional from `10⁻⁴` up to below `10¹⁶`, halfway
    cases upwards. -/
def plain : FloatLayout := ⟨-4, 15, .up, false⟩

/-- The layout of JSON documents: positional from `10⁻⁵` up to below `10¹⁶`, halfway cases to
    the even digit, and every exponent with its sign. -/
def json : FloatLayout := ⟨-5, 15, .even, true⟩

end FloatLayout

end Warrant
