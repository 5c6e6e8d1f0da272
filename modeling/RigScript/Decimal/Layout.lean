import RigScript.Decimal.Shortest

/-!
# Layouts of decimal text

A layout says how the shortest digits of a double are set out: which magnitudes are written with
the point in place and which with a power of ten, whether an integer keeps a decimal place, and
how the power of ten is signed. Each place that writes numbers picks one layout.

## Main definitions

* `RigScript.Decimal.Layout`: the decisions
* `RigScript.Decimal.Layout.write`: the text of a double
* `RigScript.Decimal.Layout.literal`: numbers in messages about a script
* `RigScript.Decimal.Layout.plain`: numbers in running text
* `RigScript.Decimal.Layout.document`: numbers in documents
-/

namespace RigScript.Decimal

/-- How the digits of a number are set out. -/
structure Layout where
  /-- Whether a number whose first digit has the given power of ten keeps its point in place. -/
  positional : Int → Bool
  /-- Whether an integer in positional notation ends in `.0`. -/
  keepsPoint : Bool
  /-- Whether a power of ten that is not negative carries a plus sign. -/
  signsExponent : Bool
  /-- The choice between two shortest decimals at the same distance. -/
  tie : Tie

namespace Layout

/-- Digits with the point in place. -/
def positionalText (l : Layout) (digits : List Char) (exponent : Int) : List Char :=
  let tail (fraction : List Char) : List Char :=
    if fraction.isEmpty then if l.keepsPoint then ['.', '0'] else [] else '.' :: fraction
  if 0 ≤ exponent then digits ++ List.replicate exponent.toNat '0' ++ tail []
  else
    let places := (-exponent).toNat
    if places < digits.length then
      digits.take (digits.length - places) ++ tail (digits.drop (digits.length - places))
    else '0' :: tail (List.replicate (places - digits.length) '0' ++ digits)

/-- Digits with one of them before the point, and a power of ten. -/
def exponentText (l : Layout) (digits : List Char) (power : Int) : List Char :=
  let mantissa := match digits with
    | [] => []
    | [d] => [d]
    | d :: ds => d :: '.' :: ds
  let sign := if power < 0 then ['-'] else if l.signsExponent then ['+'] else []
  mantissa ++ 'e' :: sign ++ Nat.toDigits 10 power.natAbs

/-- The text of a magnitude. -/
def magnitudeText (l : Layout) (b : Binary) : List Char :=
  if b.significand = 0 then l.positionalText ['0'] 0
  else
    let d := shortest l.tie b
    let digits := Nat.toDigits 10 d.coefficient
    let power := d.exponent + digits.length - 1
    if l.positional power then l.positionalText digits d.exponent
    else l.exponentText digits power

/-- The text of a double: the shortest digits that read back, `inf` and `NaN` included. -/
def write (l : Layout) (x : Float) : String :=
  match Binary.ofFloat? x with
  | some b => String.ofList ((if b.negative then ['-'] else []) ++ l.magnitudeText b)
  | none => if x.isNaN then "NaN" else if x < 0.0 then "-inf" else "inf"

/-- Numbers quoted from a script: positional from `1e-4` up to `1e16`, always with a point there. -/
def literal : Layout where
  positional p := -4 ≤ p && p < 16
  keepsPoint := true
  signsExponent := false
  tie := .up

/-- Numbers in running text: always positional, and integers without a point. -/
def plain : Layout where
  positional _ := true
  keepsPoint := false
  signsExponent := false
  tie := .up

/-- Numbers in documents: positional from `1e-5` up to `1e16`, always with a point there, and a
power of ten always signed. -/
def document : Layout where
  positional p := -5 ≤ p && p < 16
  keepsPoint := true
  signsExponent := true
  tie := .even

end Layout

end RigScript.Decimal
