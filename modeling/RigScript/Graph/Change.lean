import RigScript.Curve
import RigScript.NodeKind
import RigScript.Plug

/-!
# Changes of a scene graph

A scene graph keeps a journal of the changes that were requested of it, in order.

## Main definitions

* `RigScript.Change`: one entry of the journal
-/

namespace RigScript

/-- A change made to a scene graph. -/
inductive Change where
  | createNode (node : String) (kind : NodeKind)
  /-- A value written to a plug, as it was passed. -/
  | setAttribute (plug : Plug) (value : Value)
  | connect (source dest : Plug) (force : Bool)
  | disconnect (dest : Plug)
  | setLocked (plug : Plug) (locked : Bool)
  | createKeyframe (curve : String) (key : Keyframe Float)
  | setExtrapolation (curve : String) (pre post : Extrapolation)
  | deleteNode (node : String)
  | clearSelection
deriving DecidableEq, Repr

end RigScript
