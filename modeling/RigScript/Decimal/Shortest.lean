import RigScript.Decimal.Binary

/-!
# Shortest decimals

The text of a double has the fewest digits that still read back as that double. The numbers that
round to `m · 2 ^ q` form an interval around it, closed exactly when `m` is even. For a growing
number of digits the two decimals on either side of the value are tried, and the first grid with
one of them inside the interval wins. Of two inside, the nearer is taken, and a caller decides
between two at the same distance.

## Main definitions

* `RigScript.Decimal`: a coefficient times a power of ten
* `RigScript.Tie`: the choice between two decimals at the same distance
* `RigScript.Decimal.shortest`: the shortest decimal of a positive binary fraction
-/

namespace RigScript

/-- The number `coefficient · 10 ^ exponent`. -/
structure Decimal where
  /-- The integer formed by the digits. -/
  coefficient : Nat
  /-- The power of ten that scales it. -/
  exponent : Int
deriving DecidableEq, Repr

/-- Which of two decimals to take when they are equally near. -/
inductive Tie where
  /-- The larger one. -/
  | up
  /-- The one with an even last digit. -/
  | even
deriving DecidableEq, Repr

/-- A positive ratio of integers. -/
structure Ratio where
  /-- The dividend. -/
  num : Nat
  /-- The divisor. -/
  den : Nat
deriving Repr

namespace Ratio

/-- `n · 2 ^ e` as a ratio. -/
def ofBinary (n : Nat) (e : Int) : Ratio :=
  ⟨n <<< e.toNat, 1 <<< (-e).toNat⟩

/-- A ratio divided by `10 ^ e`. -/
def unscale (r : Ratio) (e : Int) : Ratio :=
  ⟨r.num * Nat.pow 10 (-e).toNat, r.den * Nat.pow 10 e.toNat⟩

/-- The number of decimal digits of the integer part, or minus the number of zeros after the point
when there is no integer part: the `k` with `10 ^ (k - 1) ≤ r < 10 ^ k`. -/
def magnitude (r : Ratio) : Int :=
  let k : Int := (Nat.toDigits 10 r.num).length - (Nat.toDigits 10 r.den).length
  let s := r.unscale k
  if s.den ≤ s.num then k + 1 else k

end Ratio

/-- The interval of numbers that round to a binary fraction. -/
structure Rounding where
  /-- The fraction itself. -/
  value : Ratio
  /-- The least number, or the greatest one outside. -/
  low : Ratio
  /-- The greatest number, or the least one outside. -/
  high : Ratio
  /-- Whether the ends belong to the interval. -/
  closed : Bool
deriving Repr

namespace Rounding

/-- The interval of a fraction. It reaches half way to each neighbour, and the neighbour below the
least significand of a normal number is twice as near as the one above. -/
def ofBinary (b : Binary) : Rounding :=
  let narrow := b.significand = Binary.hiddenBit ∧ Binary.minExponent < b.exponent
  { value := .ofBinary (4 * b.significand) (b.exponent - 2)
    low := .ofBinary (4 * b.significand - if narrow then 1 else 2) (b.exponent - 2)
    high := .ofBinary (4 * b.significand + 2) (b.exponent - 2)
    closed := b.significand % 2 = 0 }

/-- Whether `n · 10 ^ e` lies in the interval. -/
def contains (r : Rounding) (n : Nat) (e : Int) : Bool :=
  let low := r.low.unscale e
  let high := r.high.unscale e
  if r.closed then low.num ≤ n * low.den && n * high.den ≤ high.num
  else low.num < n * low.den && n * high.den < high.num

/-- The nearer of the two multiples of `10 ^ e` around the value that lie in the interval. -/
def neighbour? (r : Rounding) (tie : Tie) (e : Int) : Option Nat :=
  let v := r.value.unscale e
  let below := v.num / v.den
  match r.contains below e, r.contains (below + 1) e with
  | true, false => some below
  | false, true => some (below + 1)
  | false, false => none
  | true, true =>
    let rest := 2 * (v.num % v.den)
    if rest < v.den then some below
    else if v.den < rest then some (below + 1)
    else match tie with
      | .up => some (below + 1)
      | .even => some (if below % 2 = 0 then below else below + 1)

end Rounding

namespace Decimal

/-- Moves the zeros at the end of a coefficient into the exponent, at most `fuel` of them. -/
def stripZeros : (fuel : Nat) → Decimal → Decimal
  | 0, d => d
  | fuel + 1, d =>
    if d.coefficient % 10 = 0 then stripZeros fuel ⟨d.coefficient / 10, d.exponent + 1⟩ else d

/-- The shortest decimal of a positive binary fraction. Seventeen digits always suffice. -/
def shortest (tie : Tie) (b : Binary) : Decimal :=
  let r := Rounding.ofBinary b
  let k := r.value.magnitude
  let grid (digits : Nat) : Option Decimal :=
    let e := k - digits
    (r.neighbour? tie e).map fun n => stripZeros 17 ⟨n, e⟩
  ((List.range 17).findSome? fun i => grid (i + 1)).getD ⟨0, 0⟩

end Decimal

end RigScript
