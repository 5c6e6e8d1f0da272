import RigScript.Decimal.Remainder

/-!
# Keyed curves

A curve is a list of keys, each a position and a value, kept in order of position. Between two
keys it runs straight. Beyond its first and last keys it either holds the value of the end or
repeats itself. Curves are written over any type of numbers with the operations of `Scalar`, so
that the same definition can be read with doubles and with exact fractions.

## Main definitions

* `RigScript.Scalar`: what a curve asks of its numbers
* `RigScript.Keyframe`, `RigScript.Curve`: keys and curves
* `RigScript.partitionPoint`: binary search for the end of a beginning
* `RigScript.Curve.addKey`: a curve with one more key
* `RigScript.Curve.sample`: the value of a curve at a position
-/

namespace RigScript

/-- Numbers that positions and values of a curve are made of. -/
class Scalar (α : Type) extends Add α, Sub α, Mul α, Div α where
  /-- The number zero. -/
  zero : α
  /-- Equality of numbers. -/
  eq : α → α → Bool
  /-- The strict order. -/
  lt : α → α → Bool
  /-- The order. -/
  le : α → α → Bool
  /-- The remainder in the first period. -/
  cycle : α → α → α

instance : Scalar Float where
  zero := 0.0
  eq a b := a == b
  lt a b := a < b
  le a b := a ≤ b
  cycle := cyclicRemainder

/-- A key of a curve. -/
structure Keyframe (α : Type) where
  /-- Where the key stands. -/
  position : α
  /-- The value of the curve there. -/
  value : α
deriving DecidableEq, Repr

/-- How a curve goes on beyond its keys. -/
inductive Extrapolation where
  /-- It holds the value of the nearest key. -/
  | constant
  /-- It repeats the keyed range. -/
  | cyclic
deriving DecidableEq, Repr

/-- The name of an extrapolation in documents. -/
def Extrapolation.label : Extrapolation → String
  | constant => "constant"
  | cyclic => "cyclic"

/-- A keyed curve. -/
structure Curve (α : Type) where
  /-- The keys in order of position. -/
  keys : List (Keyframe α) := []
  /-- How the curve goes on before its first key. -/
  pre : Extrapolation := .constant
  /-- How the curve goes on after its last key. -/
  post : Extrapolation := .constant
deriving DecidableEq, Repr

/-! ### Binary search -/

/-- Halves the `size` elements from index `base` on until one is left, keeping to the upper half
whenever its first element satisfies `p`. -/
def bisect {α : Type} (p : α → Bool) (xs : List α) (base size : Nat) : Nat :=
  if size ≤ 1 then base
  else
    let mid := base + size / 2
    bisect p xs (if xs[mid]?.any p then mid else base) (size - size / 2)
termination_by size
decreasing_by omega

/-- The number of elements that satisfy `p`, for a list in which they all come first. -/
def partitionPoint {α : Type} (p : α → Bool) (xs : List α) : Nat :=
  let base := bisect p xs 0 xs.length
  if xs[base]?.any p then base + 1 else base

namespace Curve

variable {α : Type} [Scalar α]

/-- The keys with one more, which replaces those at its position. -/
def insertKey (key : Keyframe α) (keys : List (Keyframe α)) : List (Keyframe α) :=
  let kept := keys.filter fun k => !Scalar.eq k.position key.position
  kept.insertIdx (partitionPoint (fun k => Scalar.lt k.position key.position) kept) key

/-- The curve with one more key. -/
def addKey (c : Curve α) (key : Keyframe α) : Curve α :=
  { c with keys := insertKey key c.keys }

/-- The value at `x` of the straight pieces through `a` and the keys after it. -/
def interpolate (a : Keyframe α) : List (Keyframe α) → (x : α) → α
  | [], _ => a.value
  | b :: rest, x =>
    if Scalar.le x b.position then
      let span := b.position - a.position
      if Scalar.le span Scalar.zero then b.value
      else a.value + (b.value - a.value) * ((x - a.position) / span)
    else interpolate b rest x

/-- The value of a curve at a position. A curve without keys is zero, and one whose keys span no
distance has the value of its first key. -/
def sample (c : Curve α) (x : α) : α :=
  match c.keys with
  | [] => Scalar.zero
  | first :: rest =>
    let last := rest.getLastD first
    let period := last.position - first.position
    let repeated := interpolate first rest
      (first.position + Scalar.cycle (x - first.position) period)
    if Scalar.le period Scalar.zero then first.value
    else if Scalar.lt x first.position then
      match c.pre with
      | .constant => first.value
      | .cyclic => repeated
    else if Scalar.lt last.position x then
      match c.post with
      | .constant => last.value
      | .cyclic => repeated
    else interpolate first rest x

end Curve

end RigScript
