import RigScript.Graph.Basic
import RigScript.Host

/-!
# The scene graph as a host

A scene graph answers every request by an operation. An operation looks at the graph and changes it
step by step, and it may be refused between any two steps. The graph that its steps have left is
there on both exits, so nothing in the form of an operation makes a refusal undo anything. A request
that changes the graph is entered in the journal.

## Main definitions

* `RigScript.Graph.freshName`: the name of the next node of a kind
* `RigScript.Graph.Operation`: what may change a graph and may be refused
* `RigScript.Graph.operation`: the operation that answers a request
* `RigScript.Graph.host`: the scene graph as a host
* `RigScript.Graph.perform`: the answer to a request that is granted, and the graph after it
-/

namespace RigScript.Graph

/-- Enters a change in the journal. -/
def record (g : Graph) (c : Change) : Graph :=
  { g with journal := g.journal ++ [c] }

/-- The type name of a kind and the least number from one on that make up a name no node has.
Among one more numbers than there are nodes, one is free. -/
def freshName (g : Graph) (kind : NodeKind) : String :=
  let names := (List.range (g.nodes.size + 1)).map fun i => kind.hostType ++ toString (i + 1)
  (names.find? fun name => !g.nodes.contains name).getD kind.hostType

/-! ### Looking at a graph -/

/-- The value of a plug that exists; an array element that is not stored holds zero. -/
def getAttribute (g : Graph) (p : Plug) : Except GraphError Value := do
  let n ← g.checkAttr p
  return n.attributes[p.attr]?.getD (.double 0.0)

/-- Whether a plug that exists is locked. -/
def isLocked (g : Graph) (p : Plug) : Except GraphError Bool := do
  let n ← g.checkAttr p
  return n.locked.contains p.attr

/-- The names of the nodes with a type name, in order. -/
def listConstructs (g : Graph) (hostType : String) : List String :=
  (g.nodes.toList.filter fun e => e.2.kind.hostType = hostType).map Prod.fst

/-- The sources of the connections that end in a plug or within it, in the order of their ends;
nothing when there are none. -/
def listIncoming (g : Graph) (p : Plug) : Except GraphError (Option (List Plug)) := do
  let _ ← g.node p.node
  let sources := (g.connections.toList.filter fun e => e.1.isWithin p).map Prod.snd
  return if sources.isEmpty then none else some sources

/-! ### Operations -/

/-- What may change a scene graph and may be refused. A refusal keeps the changes made before it. -/
abbrev Operation (α : Type) : Type :=
  ExceptT GraphError (StateM Graph) α

namespace Operation

/-- Looks at the graph, in which something may be missing or locked. -/
def look {α : Type} (f : Graph → Except GraphError α) : Operation α := do
  f (← get)

/-- Changes the graph. -/
def change (f : Graph → Graph) : Operation Unit :=
  modify f

/-- Creates a node under a fresh name. -/
def createNode (kind : NodeKind) : Operation String := do
  let name := (← get).freshName kind
  change fun g => g.addNode name kind
  change fun g => g.record (.createNode name kind)
  return name

/-- Writes a value to a plug that is neither locked nor connected. -/
def setAttribute (p : Plug) (v : Value) : Operation Unit := do
  let n ← look fun g => g.checkUnlocked p
  if (← get).connections.contains p then throw (.driven p)
  let stored := v.storedOver n.attributes[p.attr]?
  let n' := { n with attributes := n.attributes.insert p.attr stored }
  change fun g => { g with nodes := g.nodes.insert p.node n' }
  change fun g => g.record (.setAttribute p v)

/-- Connects two plugs that exist, the second of them unlocked. -/
def connect (source dest : Plug) (force : Bool) : Operation Unit := do
  let _ ← look fun g => g.checkAttr source
  let _ ← look fun g => g.checkUnlocked dest
  if !force && (← get).connections.contains dest then throw (.alreadyConnected dest)
  change fun g => { g with connections := g.connections.insert dest source }
  change fun g => g.record (.connect source dest force)

/-- Removes the connection that ends in an unlocked plug, if there is one. -/
def disconnect (dest : Plug) : Operation Unit := do
  let _ ← look fun g => g.checkUnlocked dest
  let removed := (← get).connections[dest]?
  change fun g => { g with connections := g.connections.erase dest }
  if removed.isSome then change fun g => g.record (.disconnect dest)

/-- Locks or unlocks a plug that exists. -/
def setLocked (p : Plug) (locked : Bool) : Operation Unit := do
  let n ← look fun g => g.checkAttr p
  let marks := if locked then n.locked.insert p.attr else n.locked.erase p.attr
  change fun g => { g with nodes := g.nodes.insert p.node { n with locked := marks } }
  change fun g => g.record (.setLocked p locked)

/-- Adds a key to a curve. -/
def createKeyframe (curve : String) (key : Keyframe Float) : Operation Unit := do
  let n ← look fun g => g.checkCurve curve
  change fun g => { g with nodes := g.nodes.insert curve { n with curve := n.curve.addKey key } }
  change fun g => g.record (.createKeyframe curve key)

/-- Sets how a curve goes on beyond its keys. -/
def setExtrapolation (curve : String) (pre post : Extrapolation) : Operation Unit := do
  let n ← look fun g => g.checkCurve curve
  let n' := { n with curve := { n.curve with pre, post } }
  change fun g => { g with nodes := g.nodes.insert curve n' }
  change fun g => g.record (.setExtrapolation curve pre post)

/-- Deletes a node, the connections from and to it, and its place in the selection. Whether there
was such a node is seen from what was removed. -/
def deleteNode (name : String) : Operation Unit := do
  let removed := (← get).nodes[name]?
  change fun g => { g with nodes := g.nodes.erase name }
  if removed.isNone then throw (.unknownNode name)
  change fun g => { g with
    connections := g.connections.filter fun dest source =>
      dest.node != name && source.node != name }
  change fun g => { g with selection := g.selection.filter (· != name) }
  change fun g => g.record (.deleteNode name)

/-- Empties the selection. -/
def clearSelection : Operation Unit := do
  change fun g => { g with selection := [] }
  change fun g => g.record .clearSelection

end Operation

/-- The operation that answers a request. -/
def operation : (r : Request) → Operation r.Reply
  | .createNode kind => .createNode kind
  | .getAttribute p => .look fun g => g.getAttribute p
  | .setAttribute p v => .setAttribute p v
  | .connect source dest force => .connect source dest force
  | .disconnect dest => .disconnect dest
  | .isLocked p => .look fun g => g.isLocked p
  | .setLocked p locked => .setLocked p locked
  | .createKeyframe curve key => .createKeyframe curve key
  | .setExtrapolation curve pre post => .setExtrapolation curve pre post
  | .deleteNode name => .deleteNode name
  | .listConstructs hostType => .look fun g => .ok (g.listConstructs hostType)
  | .listIncoming p => .look fun g => g.listIncoming p
  | .clearSelection => .clearSelection

/-- The scene graph as a host. -/
def host : Host Graph where
  respond g r := ((operation r).run.run g).run

/-- The answer to a request that is granted, and the graph after it. -/
def perform (g : Graph) (r : Request) : Except GraphError (r.Reply × Graph) :=
  match host.respond g r with
  | (.ok reply, g') => .ok (reply, g')
  | (.error e, _) => .error e

end RigScript.Graph
