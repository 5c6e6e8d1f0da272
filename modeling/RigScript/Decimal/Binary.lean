/-!
# Binary fractions

A finite double is a sign and a significand times a power of two, both of them integers. Reading a
double apart into that form, and putting it together again, lets exact questions about doubles be
answered in integer arithmetic.

## Main definitions

* `RigScript.Binary`: a magnitude `significand · 2 ^ exponent` with a sign
* `RigScript.Binary.ofFloat?`: the parts of a finite double
* `RigScript.Binary.toFloat`: the double with given parts
-/

namespace RigScript

/-- The number `± significand · 2 ^ exponent`. -/
structure Binary where
  /-- Whether the sign is set; a zero has a sign too. -/
  negative : Bool
  /-- The integer that the power of two scales. -/
  significand : Nat
  /-- The power of two. -/
  exponent : Int
deriving DecidableEq, Repr

namespace Binary

/-- The least exponent of a double, that of the subnormal numbers. -/
def minExponent : Int := -1074

/-- The least significand of a normal number, the power of two with exponent 52. -/
def hiddenBit : Nat := 0x10000000000000

/-- The bit that holds the sign of a double. -/
def signBit : Nat := 0x8000000000000000

/-- The parts of a finite double; infinities and NaN have none. A normal number has a significand
from `hiddenBit` up to twice that, and a subnormal one or a zero has the least exponent. -/
def ofFloat? (x : Float) : Option Binary :=
  let bits : Nat := x.toBits.toNat
  let negative := signBit ≤ bits
  let biased : Nat := bits / hiddenBit % 2048
  let fraction : Nat := bits % hiddenBit
  if biased = 2047 then none
  else if biased = 0 then some ⟨negative, fraction, minExponent⟩
  else some ⟨negative, fraction + hiddenBit, (biased : Int) - 1075⟩

/-- The double with given parts, for a significand below twice `hiddenBit` and an exponent from
`minExponent` to 971. The significand is first moved up as far as the exponent allows. -/
def toFloat (b : Binary) : Float :=
  let shift := min (52 - b.significand.log2) (b.exponent - minExponent).toNat
  let m := b.significand <<< shift
  let magnitude :=
    if m < hiddenBit then m
    else (b.exponent - shift + 1075).toNat * hiddenBit + (m - hiddenBit)
  Float.ofBits (magnitude + if b.negative then signBit else 0).toUInt64

end Binary

end RigScript
