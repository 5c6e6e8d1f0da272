import Std.Data.ExtTreeMap

/-!
# Plugs

A plug is the address of an attribute: a node and an attribute on it, written `node.attribute`.
An attribute may have elements `attribute[i]` and children `attribute.child`, which lie within it.
Plugs are ordered by node and then by attribute, each by code points.

## Main definitions

* `RigScript.Plug`: an address
* `RigScript.Plug.parse?`: the address that a text stands for
* `RigScript.Plug.isWithin`: whether one plug lies within another
-/

namespace RigScript

/-- The address of an attribute of a node. -/
structure Plug where
  /-- The name of the node. -/
  node : String
  /-- The attribute, with its elements and children. -/
  attr : String
deriving DecidableEq, Repr

namespace Plug

/-- Plugs are ordered by node, and on one node by attribute. -/
instance : Ord Plug :=
  ⟨compareLex (compareOn Plug.node) (compareOn Plug.attr)⟩

instance : Std.TransOrd Plug :=
  inferInstanceAs (Std.TransCmp (compareLex (compareOn Plug.node) (compareOn Plug.attr)))

instance : Std.LawfulEqOrd Plug where
  eq_of_compare {a b} h := by
    have h' : compareLex (compareOn Plug.node) (compareOn Plug.attr) a b = .eq := h
    simp only [compareLex_eq_eq, compareOn, Std.LawfulEqOrd.compare_eq_iff_eq] at h'
    cases a
    cases b
    simp_all

/-- The written form of a plug. -/
def text (p : Plug) : String :=
  p.node ++ "." ++ p.attr

/-- The plug that a text stands for: the node is what precedes the first point, the attribute what
follows it, and neither may be empty. -/
def parse? (path : String) : Option Plug :=
  let node := path.toList.takeWhile (· != '.')
  match path.toList.dropWhile (· != '.') with
  | _ :: attr =>
    if node.isEmpty || attr.isEmpty then none else some ⟨String.ofList node, String.ofList attr⟩
  | [] => none

/-- What is said of a text that stands for no plug. -/
def malformed (path : String) : String :=
  "\"" ++ path ++ "\" is not a node.attribute path"

/-- What is left of a text after a given beginning. -/
def after? : (beginning text : List Char) → Option (List Char)
  | [], cs => some cs
  | _ :: _, [] => none
  | b :: bs, c :: cs => if b = c then after? bs cs else none

/-- Whether a text continues an attribute with an element or a child. -/
def extendsAttr : List Char → Bool
  | [] => true
  | c :: _ => c == '[' || c == '.'

/-- Whether `p` is `q` itself, or an element or child of it. -/
def isWithin (p q : Plug) : Bool :=
  p.node = q.node &&
    match after? q.attr.toList p.attr.toList with
    | some rest => extendsAttr rest
    | none => false

end Plug

end RigScript
