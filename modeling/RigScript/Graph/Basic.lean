import RigScript.Graph.Change
import RigScript.Graph.Error
import Std.Data.ExtTreeSet

/-!
# Scene graphs

A scene graph has nodes with attributes, connections from plugs to plugs, and a selection. At most
one connection ends in a plug. Array elements exist without being stored: an attribute with a
bracket in its name is present on every node. Requests that change the graph are entered in a
journal; setting up a scene is not.

## Main definitions

* `RigScript.Node`, `RigScript.Graph`: nodes and graphs
* `RigScript.Graph.checkAttr`: the node of a plug that exists
* `RigScript.Graph.addNode` and its neighbours: setting up a scene
* `RigScript.Graph.value?` and its neighbours: looking at a graph
-/

namespace RigScript

/-- A node of a scene graph. -/
structure Node where
  /-- The kind of the node. -/
  kind : NodeKind
  /-- The stored attributes. -/
  attributes : Std.ExtTreeMap String Value
  /-- The attributes that may not be written or connected. -/
  locked : Std.ExtTreeSet String
  /-- The keys of the node and how they extend. -/
  curve : Curve Float

/-- A fresh node of a kind. -/
def Node.ofKind (kind : NodeKind) : Node :=
  ⟨kind, .ofList kind.defaultAttributes, ∅, {}⟩

/-- A scene graph. -/
structure Graph where
  /-- The nodes by name. -/
  nodes : Std.ExtTreeMap String Node
  /-- The source of every plug that has an incoming connection. -/
  connections : Std.ExtTreeMap Plug Plug
  /-- The names of the selected nodes. -/
  selection : List String
  /-- The requested changes since the journal was last cleared. -/
  journal : List Change

namespace Graph

/-- The graph without nodes. -/
def empty : Graph :=
  ⟨∅, ∅, [], []⟩

instance : Inhabited Graph :=
  ⟨empty⟩

/-! ### Presence -/

/-- The node with a given name. -/
def node (g : Graph) (name : String) : Except GraphError Node :=
  match g.nodes[name]? with
  | some n => .ok n
  | none => .error (.unknownNode name)

/-- Whether an attribute names an array element or a part of one. -/
def isElement (attr : String) : Bool :=
  attr.toList.contains '['

/-- The node of a plug that exists: its attribute is stored there or is an array element. -/
def checkAttr (g : Graph) (p : Plug) : Except GraphError Node := do
  let n ← g.node p.node
  if n.attributes.contains p.attr || isElement p.attr then return n
  else throw (.unknownAttribute p)

/-- The node of a plug that exists and is not locked. -/
def checkUnlocked (g : Graph) (p : Plug) : Except GraphError Node := do
  let n ← g.checkAttr p
  if n.locked.contains p.attr then throw (.locked p) else return n

/-- The node with a given name, which has to be a curve. -/
def checkCurve (g : Graph) (name : String) : Except GraphError Node := do
  let n ← g.node name
  if n.kind = .primitive .rampCurve then return n
  else throw (.wrongKind name n.kind.hostType Primitive.rampCurve.hostType)

/-! ### Setting up a scene -/

/-- Adds a fresh node, or puts one in the place of the node of that name. -/
def addNode (g : Graph) (name : String) (kind : NodeKind) : Graph :=
  { g with nodes := g.nodes.insert name (.ofKind kind) }

/-- Stores an attribute on a node; nothing happens when there is no such node. -/
def addAttribute (g : Graph) (p : Plug) (v : Value) : Graph :=
  match g.nodes[p.node]? with
  | some n =>
    { g with nodes := g.nodes.insert p.node { n with attributes := n.attributes.insert p.attr v } }
  | none => g

/-- Locks a plug. -/
def lock (g : Graph) (p : Plug) : Except GraphError Graph := do
  let n ← g.checkAttr p
  return { g with nodes := g.nodes.insert p.node { n with locked := n.locked.insert p.attr } }

/-- Connects two plugs. -/
def addConnection (g : Graph) (source dest : Plug) : Except GraphError Graph := do
  let _ ← g.checkAttr source
  let _ ← g.checkAttr dest
  return { g with connections := g.connections.insert dest source }

/-- Adds a node to the selection. -/
def select (g : Graph) (name : String) : Except GraphError Graph := do
  let _ ← g.node name
  return { g with selection := g.selection ++ [name] }

/-- Forgets the journal. -/
def clearJournal (g : Graph) : Graph :=
  { g with journal := [] }

/-! ### Looking at a graph -/

/-- The kind of a node. -/
def kind? (g : Graph) (name : String) : Option NodeKind :=
  g.nodes[name]?.map Node.kind

/-- The number of nodes. -/
def nodeCount (g : Graph) : Nat :=
  g.nodes.size

/-- The names of the nodes of a kind, in order. -/
def nodesOfKind (g : Graph) (kind : NodeKind) : List String :=
  (g.nodes.toList.filter fun e => e.2.kind = kind).map Prod.fst

/-- The stored value of a plug, whatever is connected to it. -/
def value? (g : Graph) (p : Plug) : Option Value :=
  g.nodes[p.node]?.bind fun n => n.attributes[p.attr]?

/-- The source connected to a plug. -/
def source? (g : Graph) (dest : Plug) : Option Plug :=
  g.connections[dest]?

/-- The keys of a node and how they extend. -/
def curve? (g : Graph) (name : String) : Option (Curve Float) :=
  g.nodes[name]?.map Node.curve

end Graph

end RigScript
