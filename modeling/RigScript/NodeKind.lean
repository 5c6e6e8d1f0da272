import RigScript.Value

/-!
# Kinds of nodes

Six kinds of nodes compute: they have inputs and outputs, and expressions are built out of them.
Every other kind is known by its type name alone. This module fixes the type names, the names of
the attributes that expressions are wired to, and the attributes of a fresh node.

## Main definitions

* `RigScript.Primitive`: the kinds that compute
* `RigScript.NodeKind`: all kinds
* `RigScript.NodeKind.ofHostType`: the kind with a given type name
* `RigScript.NodeKind.defaultAttributes`: what a fresh node holds
-/

namespace RigScript

/-- The kinds of nodes that compute. -/
inductive Primitive where
  /-- A product, or a quotient when its operation is 2. -/
  | multiplyDivide
  /-- A sum, or a difference when its operation is 2. -/
  | plusMinusAverage
  /-- A value held between two bounds. -/
  | clamp
  /-- A keyed curve. -/
  | rampCurve
  /-- A product of two distances. -/
  | multDoubleLinear
  /-- The quaternion of a rotation. -/
  | eulerToQuat
deriving DecidableEq, Repr

namespace Primitive

/-- The type name of a kind. -/
def hostType : Primitive → String
  | multiplyDivide => "multiplyDivide"
  | plusMinusAverage => "plusMinusAverage"
  | clamp => "clamp"
  | rampCurve => "animCurveUU"
  | multDoubleLinear => "multDoubleLinear"
  | eulerToQuat => "eulerToQuat"

/-- All kinds that compute. -/
def all : List Primitive :=
  [multiplyDivide, plusMinusAverage, clamp, rampCurve, multDoubleLinear, eulerToQuat]

end Primitive

/-! ### Names of attributes -/

namespace MultiplyDivide

/-- Selects between product and quotient. -/
def operation : String := "operation"
/-- The first factor, or the dividend. -/
def input1 : String := "input1X"
/-- The second factor, or the divisor. -/
def input2 : String := "input2X"
/-- The result. -/
def output : String := "outputX"

end MultiplyDivide

namespace PlusMinusAverage

/-- Selects between sum and difference. -/
def operation : String := "operation"
/-- The first operand. -/
def input1 : String := "input1D[0]"
/-- The second operand. -/
def input2 : String := "input1D[1]"
/-- The result. -/
def output : String := "output1D"

end PlusMinusAverage

namespace Clamp

/-- The value to hold. -/
def input : String := "inputR"
/-- The lower bound. -/
def min : String := "minR"
/-- The upper bound. -/
def max : String := "maxR"
/-- The result. -/
def output : String := "outputR"

end Clamp

namespace RampCurve

/-- The position to sample at. -/
def input : String := "input"
/-- The sampled value. -/
def output : String := "output"

end RampCurve

namespace MultDoubleLinear

/-- The first factor. -/
def input1 : String := "input1"
/-- The second factor. -/
def input2 : String := "input2"
/-- The product. -/
def output : String := "output"

end MultDoubleLinear

namespace EulerToQuat

/-- The rotation about the first axis, in radians. -/
def rotateX : String := "inputRotateX"
/-- The rotation about the second axis, in radians. -/
def rotateY : String := "inputRotateY"
/-- The rotation about the third axis, in radians. -/
def rotateZ : String := "inputRotateZ"
/-- The first vector component of the quaternion. -/
def quatX : String := "outputQuat.outputQuatX"
/-- The scalar component of the quaternion. -/
def quatW : String := "outputQuat.outputQuatW"

end EulerToQuat

/-! ### Kinds -/

/-- The kind of a node. -/
inductive NodeKind where
  /-- A kind that computes. -/
  | primitive (p : Primitive)
  /-- Any other kind, by its type name. -/
  | other (hostType : String)
deriving DecidableEq, Repr

namespace NodeKind

/-- The type name of a kind. -/
def hostType : NodeKind → String
  | primitive p => p.hostType
  | other t => t

/-- The kind with a given type name. -/
def ofHostType (t : String) : NodeKind :=
  match Primitive.all.find? fun p => p.hostType == t with
  | some p => primitive p
  | none => other t

/-- The attributes that a fresh node of a kind holds. -/
def defaultAttributes : NodeKind → List (String × Value)
  | primitive .multiplyDivide =>
    [(MultiplyDivide.operation, .int 1), (MultiplyDivide.input1, .double 0.0),
      (MultiplyDivide.input2, .double 1.0), (MultiplyDivide.output, .double 0.0)]
  | primitive .plusMinusAverage =>
    [(PlusMinusAverage.operation, .int 1), (PlusMinusAverage.input1, .double 0.0),
      (PlusMinusAverage.input2, .double 0.0), (PlusMinusAverage.output, .double 0.0)]
  | primitive .clamp =>
    [(Clamp.input, .double 0.0), (Clamp.min, .double 0.0), (Clamp.max, .double 0.0),
      (Clamp.output, .double 0.0)]
  | primitive .rampCurve => [(RampCurve.input, .double 0.0), (RampCurve.output, .double 0.0)]
  | primitive .multDoubleLinear =>
    [(MultDoubleLinear.input1, .doubleLinear 0.0), (MultDoubleLinear.input2, .doubleLinear 1.0),
      (MultDoubleLinear.output, .doubleLinear 0.0)]
  | primitive .eulerToQuat =>
    [(EulerToQuat.rotateX, .double 0.0), (EulerToQuat.rotateY, .double 0.0),
      (EulerToQuat.rotateZ, .double 0.0), (EulerToQuat.quatX, .double 0.0),
      (EulerToQuat.quatW, .double 1.0)]
  | other _ => []

end NodeKind

end RigScript
