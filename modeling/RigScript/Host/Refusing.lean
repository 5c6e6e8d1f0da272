import RigScript.Host

/-!
# Hosts that refuse

To rehearse failures, a host is wrapped so that it refuses chosen requests: for each method, the
calls with given numbers. A refused request does not reach the host. Calls are counted per method,
refused ones included.

## Main definitions

* `RigScript.Method`: the methods of a host
* `RigScript.Host.refusing`: a host that refuses chosen calls
* `RigScript.Host.listingEmpty`: a host that lists no connections as an empty list
-/

namespace RigScript

/-- The methods of a host. -/
inductive Method where
  | createNode
  | getAttribute
  | setAttribute
  | connect
  | disconnect
  | isLocked
  | setLocked
  | createKeyframe
  | setExtrapolation
  | deleteNode
  | listConstructs
  | listIncoming
  | clearSelection
deriving DecidableEq, Repr

namespace Method

/-- The name of a method. -/
def name : Method → String
  | createNode => "create_node"
  | getAttribute => "get_attribute"
  | setAttribute => "set_attribute"
  | connect => "connect"
  | disconnect => "disconnect"
  | isLocked => "is_locked"
  | setLocked => "set_locked"
  | createKeyframe => "create_keyframe"
  | setExtrapolation => "set_extrapolation"
  | deleteNode => "delete_node"
  | listConstructs => "list_constructs"
  | listIncoming => "list_incoming_connections"
  | clearSelection => "clear_selection"

/-- All methods. -/
def all : List Method :=
  [createNode, getAttribute, setAttribute, connect, disconnect, isLocked, setLocked,
    createKeyframe, setExtrapolation, deleteNode, listConstructs, listIncoming, clearSelection]

/-- The method with a given name. -/
def ofName? (name : String) : Option Method :=
  all.find? fun m => m.name == name

end Method

/-- The method that a request calls. -/
def Request.method : Request → Method
  | createNode _ => .createNode
  | getAttribute _ => .getAttribute
  | setAttribute _ _ => .setAttribute
  | connect _ _ _ => .connect
  | disconnect _ => .disconnect
  | isLocked _ => .isLocked
  | setLocked _ _ => .setLocked
  | createKeyframe _ _ => .createKeyframe
  | setExtrapolation _ _ _ => .setExtrapolation
  | deleteNode _ => .deleteNode
  | listConstructs _ => .listConstructs
  | listIncoming _ => .listIncoming
  | clearSelection => .clearSelection

namespace Host

variable {σ : Type}

/-- Refuses the listed calls of a host, each given by its method and its number from one on. The
state holds the methods called so far. -/
def refusing (calls : List (Method × Nat)) (host : Host σ) : Host (σ × List Method) where
  respond s r :=
    let number := s.2.count r.method + 1
    let made := r.method :: s.2
    if calls.contains (r.method, number) then
      (.error (.host ("host refused " ++ r.method.name ++ " call " ++ toString number)),
        (s.1, made))
    else
      let (reply, s') := host.respond s.1 r
      (reply, (s', made))

/-- Answers a request for incoming connections with an empty list where the host has no list. -/
def listingEmpty (host : Host σ) : Host σ where
  respond s r :=
    match r, host.respond s r with
    | .listIncoming _, (.ok none, s') => (.ok (some []), s')
    | _, answer => answer

end Host

end RigScript
