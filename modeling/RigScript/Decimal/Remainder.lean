import RigScript.Decimal.Binary

/-!
# Exact remainders of doubles

The remainder of a division of doubles that rounds towards zero is itself a double, so it can be
computed without rounding: both numbers are brought to one power of two and divided as integers.

## Main definitions

* `RigScript.Binary.mod`: the remainder of two magnitudes, with the sign of the dividend
* `RigScript.remainder`: the same on doubles
* `RigScript.cyclicRemainder`: the remainder moved into the first period
-/

namespace RigScript

/-- The remainder of `x` by a non-zero `y`: it has the sign of `x` and is smaller than `y` in
magnitude. -/
def Binary.mod (x y : Binary) : Binary :=
  let e := min x.exponent y.exponent
  let scaled (b : Binary) : Nat := b.significand <<< (b.exponent - e).toNat
  ⟨x.negative, scaled x % scaled y, e⟩

/-- The remainder of a division that rounds towards zero. There is none for an infinite dividend
or a zero divisor; an infinite divisor leaves the dividend as it is. -/
def remainder (x y : Float) : Float :=
  match Binary.ofFloat? x, Binary.ofFloat? y with
  | some a, some b => if b.significand = 0 then 0.0 / 0.0 else (a.mod b).toFloat
  | some _, none => if y.isNaN then y else x
  | none, _ => 0.0 / 0.0

/-- The remainder brought from the period below zero into the first one above it. -/
def cyclicRemainder (x period : Float) : Float :=
  let r := remainder x period
  if r < 0.0 then r + period.abs else r

end RigScript
