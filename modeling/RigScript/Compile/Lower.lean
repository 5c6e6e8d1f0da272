import RigScript.Compile.Build
import RigScript.Compile.Resolve

/-!
# Lowering expressions to nodes

An expression becomes a network of computing nodes. What stands for its value is a number or a
plug: numbers and paths need no node, a sign on a number is folded into it, and every other
operation creates a node, writes or connects its operands, and stands for the output of the node.
A remainder becomes a ramp that repeats, a bound becomes a clamp whose other bound is out of the
way, and a sine becomes the first component of the quaternion of twice the angle.

## Main definitions

* `RigScript.Operand`: what stands for the value of an expression
* `RigScript.Build.multiplyDivide` and its neighbours: one operation as a node
* `RigScript.Build.lower`: a whole expression
* `RigScript.Build.sentence`: one assignment
* `RigScript.Build.program`: a whole script
-/

namespace RigScript

/-- What stands for the value of an expression. -/
inductive Operand where
  /-- A number to write. -/
  | constant (x : Float)
  /-- A plug to connect from. -/
  | plug (p : Plug)
deriving DecidableEq, Repr

/-- The functions that a script may call. -/
inductive Builtin where
  | min
  | max
  | sin
deriving DecidableEq, Repr

namespace Builtin

/-- The function with a given name. -/
def ofName? (name : String) : Option Builtin :=
  if name = "min" then some min
  else if name = "max" then some max
  else if name = "sin" then some sin
  else none

/-- The number of arguments of a function. -/
def arity : Builtin → Nat
  | min => 2
  | max => 2
  | sin => 1

end Builtin

/-- The greatest finite double. -/
def largestFloat : Float := 1.7976931348623157e308

namespace Build

/-- Writes a number to an input of a new node, or connects a plug to it. -/
def supply (operand : Operand) (dest : Plug) : Build Unit :=
  match operand with
  | .constant x => ask (.setAttribute dest (.double x))
  | .plug p => ask (.connect p dest false)

/-- A product or a quotient. -/
def multiplyDivide (a b : Operand) (divide : Bool) : Build Operand := do
  let node ← create (.primitive .multiplyDivide)
  if divide then ask (.setAttribute ⟨node, MultiplyDivide.operation⟩ (.int 2))
  supply a ⟨node, MultiplyDivide.input1⟩
  supply b ⟨node, MultiplyDivide.input2⟩
  return .plug ⟨node, MultiplyDivide.output⟩

/-- A sum or a difference. -/
def plusMinus (a b : Operand) (subtract : Bool) : Build Operand := do
  let node ← create (.primitive .plusMinusAverage)
  ask (.setAttribute ⟨node, PlusMinusAverage.operation⟩ (.int (if subtract then 2 else 1)))
  supply a ⟨node, PlusMinusAverage.input1⟩
  supply b ⟨node, PlusMinusAverage.input2⟩
  return .plug ⟨node, PlusMinusAverage.output⟩

/-- A remainder by a number, as a ramp from zero to one that repeats. -/
def modulo (epsilon : Float) (a b : Operand) : Build Operand :=
  match b with
  | .plug _ => throw (.nonConstant .modulo)
  | .constant divisor => do
    if divisor.isNaN || divisor ≤ epsilon then throw (.unsupported (.divisor divisor))
    let curve ← create (.primitive .rampCurve)
    ask (.createKeyframe curve ⟨0.0, 0.0⟩)
    ask (.createKeyframe curve ⟨divisor - epsilon, 1.0⟩)
    ask (.setExtrapolation curve .cyclic .cyclic)
    supply a ⟨curve, RampCurve.input⟩
    return .plug ⟨curve, RampCurve.output⟩

/-- A value bounded from above. -/
def boundedAbove (value bound : Operand) : Build Operand := do
  let node ← create (.primitive .clamp)
  supply value ⟨node, Clamp.input⟩
  ask (.setAttribute ⟨node, Clamp.min⟩ (.double (-largestFloat)))
  supply bound ⟨node, Clamp.max⟩
  return .plug ⟨node, Clamp.output⟩

/-- A value bounded from below. -/
def boundedBelow (value bound : Operand) : Build Operand := do
  let node ← create (.primitive .clamp)
  supply value ⟨node, Clamp.input⟩
  ask (.setAttribute ⟨node, Clamp.max⟩ (.double largestFloat))
  supply bound ⟨node, Clamp.min⟩
  return .plug ⟨node, Clamp.output⟩

/-- A sine. -/
def sine (angle : Operand) : Build Operand := do
  let doubler ← create (.primitive .multDoubleLinear)
  supply angle ⟨doubler, MultDoubleLinear.input1⟩
  ask (.setAttribute ⟨doubler, MultDoubleLinear.input2⟩ (.doubleLinear 2.0))
  let quat ← create (.primitive .eulerToQuat)
  ask (.connect ⟨doubler, MultDoubleLinear.output⟩ ⟨quat, EulerToQuat.rotateX⟩ false)
  return .plug ⟨quat, EulerToQuat.quatX⟩

/-- An expression with its sign changed. -/
def negate : Operand → Build Operand
  | .constant x => return .constant (-x)
  | .plug p => multiplyDivide (.plug p) (.constant (-1.0)) false

/-- An operation on two operands. -/
def combine (c : Context) (op : BinaryOp) (a b : Operand) : Build Operand :=
  match op with
  | .multiply => multiplyDivide a b false
  | .divide => multiplyDivide a b true
  | .add => plusMinus a b false
  | .subtract => plusMinus a b true
  | .modulo => modulo c.options.moduloEpsilon a b
  | .equal => throw (.unsupported (.comparison .equal))
  | .unequal => throw (.unsupported (.comparison .unequal))

/-- A function applied to operands. -/
def apply (name : String) : Builtin → List Operand → Build Operand
  | .min, [value, bound] => boundedAbove value bound
  | .max, [value, bound] => boundedBelow value bound
  | .sin, [angle] => sine angle
  | _, _ => throw (.shape (.described (name ++ "() argument shape mismatch")))

/-- The function that a call names, for the number of its arguments. -/
def checkCall (name : String) (found : Nat) : Build Builtin :=
  match Builtin.ofName? name with
  | none => throw (.unknownFunction name)
  | some f => if found = f.arity then return f else throw (.shape (.arity name f.arity found))

/-- The plug of a path, whose wrong shape is a failure. -/
def resolve (c : Context) (path : String) : Build Plug :=
  match c.resolve path with
  | .ok p => return p
  | .error fault => throw (.shape fault)

mutual

/-- Lowers an expression. -/
def lower (c : Context) : Expr → Build Operand
  | .number x => return .constant x
  | .path text => do return .plug (← resolve c text)
  | .brackets e => lower c e
  | .unary .plus e => lower c e
  | .unary .minus e => do negate (← lower c e)
  | .binary .equal _ _ => throw (.unsupported (.comparison .equal))
  | .binary .unequal _ _ => throw (.unsupported (.comparison .unequal))
  | .binary op left right => do
    let a ← lower c left
    let b ← lower c right
    combine c op a b
  | .call name args => do
    let f ← checkCall name args.length
    let operands ← lowerAll c args
    apply name f operands

/-- Lowers expressions from left to right. -/
def lowerAll (c : Context) : List Expr → Build (List Operand)
  | [] => return []
  | e :: es => do
    let a ← lower c e
    let as ← lowerAll c es
    return a :: as

end

/-- The plug that a sentence assigns to, which has to hold a scalar. -/
def destination (c : Context) (target : String) : Build Plug := do
  let plug ← resolve c target
  let value : Value ← ask (.getAttribute plug)
  if value.kind.isScalar then return plug
  else throw (.attributeType plug value.kind "double or doubleLinear")

/-- Writes or connects what stands for the value of a sentence, on a plug that is unlocked. -/
def assign (dest : Plug) : Operand → Build Unit
  | .constant x => do
    ask (.disconnect dest)
    ask (.setAttribute dest (.double x))
  | .plug p => ask (.connect p dest true)

/-- Compiles one sentence. -/
def sentence (c : Context) (s : Sentence) : Build Unit := do
  let dest ← destination c s.target
  let source ← lower c s.value
  let locked : Bool ← ask (.isLocked dest)
  if locked then ask (.setLocked dest false)
  assign dest source

/-- Compiles sentences in order. -/
def sentences (c : Context) : List Sentence → Build Unit
  | [] => return ()
  | s :: ss => do
    sentence c s
    sentences c ss

end Build

/-- The sentences of a script, unless it holds a choice. -/
def Program.sentences? (p : Program) : Option (List Sentence) :=
  p.segments.mapM fun
    | .sentence s => some s
    | .condition _ _ _ => none

/-- Compiles a script. A choice is refused before anything is built. -/
def Build.program (c : Context) (p : Program) : Build Unit :=
  match p.sentences? with
  | none => throw (.unsupported .condition)
  | some ss => sentences c ss

end RigScript
