/-!
# Attribute values

An attribute holds a value of one of six kinds. A numeric view reads the scalar kinds as doubles;
texts and triples have none.

## Main definitions

* `RigScript.AttrKind`: the kinds of attributes
* `RigScript.Value`: their values
* `RigScript.Value.toFloat?`: the numeric view
-/

namespace RigScript

/-- The kinds of attributes. -/
inductive AttrKind where
  | double
  /-- A double that measures a distance. -/
  | doubleLinear
  | int
  | bool
  | string
  | double3
deriving DecidableEq, Repr

namespace AttrKind

/-- The name of a kind in messages. -/
def label : AttrKind → String
  | double => "double"
  | doubleLinear => "doubleLinear"
  | int => "long"
  | bool => "bool"
  | string => "string"
  | double3 => "double3"

/-- The kinds that a sentence may assign to. -/
def isScalar : AttrKind → Bool
  | double => true
  | doubleLinear => true
  | _ => false

end AttrKind

/-- The value of an attribute. -/
inductive Value where
  | double (x : Float)
  | doubleLinear (x : Float)
  | int (i : Int64)
  | bool (b : Bool)
  | string (s : String)
  | double3 (x y z : Float)
deriving DecidableEq, Repr

namespace Value

/-- The kind of a value. -/
def kind : Value → AttrKind
  | double _ => .double
  | doubleLinear _ => .doubleLinear
  | int _ => .int
  | bool _ => .bool
  | string _ => .string
  | double3 _ _ _ => .double3

/-- The value read as a number; the truth values read as one and zero. -/
def toFloat? : Value → Option Float
  | double x => some x
  | doubleLinear x => some x
  | int i => some (Float.ofInt i.toInt)
  | bool b => some (if b then 1.0 else 0.0)
  | string _ => none
  | double3 _ _ _ => none

/-- The value as stored over an old one: a number keeps the unit that the attribute has. -/
def storedOver (old : Option Value) (new : Value) : Value :=
  match old, new with
  | some (doubleLinear _), double x => doubleLinear x
  | some (double _), doubleLinear x => double x
  | _, v => v

end Value

end RigScript
