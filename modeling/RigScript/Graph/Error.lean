import RigScript.NodeKind
import RigScript.Plug

/-!
# Graph errors

The reasons for which a scene graph refuses a request, and their wording.

## Main definitions

* `RigScript.EvaluationFault`: why a plug has no value
* `RigScript.GraphError`: why a request is refused
* `RigScript.GraphError.message`: the wording
-/

namespace RigScript

/-- Why the value of a plug cannot be computed. -/
inductive EvaluationFault where
  /-- The plug depends on itself. -/
  | cycle
  /-- The stored value has no numeric view. -/
  | notNumeric (kind : AttrKind)
  /-- A reason given by whoever evaluates. -/
  | described (text : String)
deriving DecidableEq, Repr

/-- The wording of an evaluation fault. -/
def EvaluationFault.message : EvaluationFault → String
  | cycle => "dependency cycle"
  | notNumeric kind => kind.label ++ " is not numeric"
  | described text => text

/-- Why a scene graph refuses a request. -/
inductive GraphError where
  | unknownNode (name : String)
  | unknownAttribute (plug : Plug)
  | locked (plug : Plug)
  | alreadyConnected (plug : Plug)
  | driven (plug : Plug)
  | wrongKind (node found expected : String)
  | evaluation (plug : Plug) (fault : EvaluationFault)
  /-- A reason of the host's own. -/
  | host (text : String)
deriving DecidableEq, Repr

/-- The wording of a graph error. -/
def GraphError.message : GraphError → String
  | unknownNode name => "unknown node \"" ++ name ++ "\""
  | unknownAttribute plug => "unknown attribute \"" ++ plug.text ++ "\""
  | locked plug => "attribute \"" ++ plug.text ++ "\" is locked"
  | alreadyConnected plug => "\"" ++ plug.text ++ "\" already has an incoming connection"
  | driven plug => "\"" ++ plug.text ++ "\" is driven by a connection"
  | wrongKind node found expected =>
    "node \"" ++ node ++ "\" is a " ++ found ++ ", expected " ++ expected
  | evaluation plug fault => "cannot evaluate \"" ++ plug.text ++ "\": " ++ fault.message
  | host text => text

end RigScript
