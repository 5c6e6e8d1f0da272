import RigScript.Graph.Basic
import RigScript.Json

/-!
# Scenes

A scene describes the start of a scene graph: nodes with attributes and locks, connections, and a
selection. Scenes are read from documents and written to them.

## Main definitions

* `RigScript.NodeDef`, `RigScript.Scene`: descriptions of nodes and scenes
* `RigScript.Scene.ofJson?`, `RigScript.Scene.toJson`: reading and writing
* `RigScript.Graph.ofScene`: the graph of a scene
-/

namespace RigScript

/-! ### Values -/

/-- The value that a document describes: an object with one field, named for the kind. -/
def Value.ofJson? : Json → Option Value
  | .object [(key, j)] =>
    if key = "double" then j.toFloat?.map .double
    else if key = "double_linear" then j.toFloat?.map .doubleLinear
    else if key = "int" then j.toInt64?.map .int
    else if key = "bool" then j.toBool?.map .bool
    else if key = "string" then j.toText?.map .string
    else if key = "double3" then
      match j with
      | .array [x, y, z] => do return .double3 (← x.toFloat?) (← y.toFloat?) (← z.toFloat?)
      | _ => none
    else none
  | _ => none

/-- The description of a value. -/
def Value.toJson : Value → Json
  | double x => .object [("double", .float x)]
  | doubleLinear x => .object [("double_linear", .float x)]
  | int i => .object [("int", .integer i.toInt)]
  | bool b => .object [("bool", .bool b)]
  | string s => .object [("string", .string s)]
  | double3 x y z => .object [("double3", .array [.float x, .float y, .float z])]

/-- The plug whose written form a document is. -/
def Plug.ofJson? (j : Json) : Option Plug :=
  j.toText?.bind Plug.parse?

/-- The written form of a plug. -/
def Plug.toJson (p : Plug) : Json :=
  .string p.text

/-! ### Nodes -/

/-- The description of a node. -/
structure NodeDef where
  /-- The name of the node. -/
  name : String
  /-- The kind of the node. -/
  kind : NodeKind
  /-- Attributes beside those that a fresh node has. -/
  attributes : Std.ExtTreeMap String Value
  /-- The locked attributes. -/
  locked : List String

/-- The attributes that a document describes; of a repeated name the last one counts. -/
def attributesOfJson? : Json → Option (Std.ExtTreeMap String Value)
  | .object fields => do
    let entries ← fields.mapM fun f => (Value.ofJson? f.2).map fun v => (f.1, v)
    return .ofList entries
  | _ => none

/-- The items of an array, each read in the same way. -/
def itemsOfJson? {α : Type} (read : Json → Option α) (j : Json) : Option (List α) :=
  j.toItems?.bind fun items => items.mapM read

/-- The texts in an array. -/
def textsOfJson? : Json → Option (List String) :=
  itemsOfJson? Json.toText?

/-- The node that a document describes. -/
def NodeDef.ofJson? (j : Json) : Option NodeDef := do
  let field ← j.record? ["name", "type", "attributes", "locked"]
  let name ← (← field "name").toText?
  let hostType ← (← field "type").toText?
  let attributes ← Json.orDefault attributesOfJson? ∅ (field "attributes")
  let locked ← Json.orDefault textsOfJson? [] (field "locked")
  return ⟨name, .ofHostType hostType, attributes, locked⟩

/-- The description of a node as a document. -/
def NodeDef.toJson (n : NodeDef) : Json :=
  .object
    [("name", .string n.name), ("type", .string n.kind.hostType),
      ("attributes", .object (n.attributes.toList.map fun e => (e.1, e.2.toJson))),
      ("locked", .array (n.locked.map .string))]

/-! ### Scenes -/

/-- The description of a scene. -/
structure Scene where
  /-- The nodes. -/
  nodes : List NodeDef
  /-- The connections, each a source and a destination. -/
  connections : List (Plug × Plug)
  /-- The selected nodes. -/
  selection : List String

/-- The connection that a document describes. -/
def connectionOfJson? : Json → Option (Plug × Plug)
  | .array [source, dest] => do return (← Plug.ofJson? source, ← Plug.ofJson? dest)
  | _ => none

/-- The scene that a document describes. -/
def Scene.ofJson? (j : Json) : Option Scene := do
  let field ← j.record? ["nodes", "connections", "selection"]
  let nodes ← Json.orDefault (itemsOfJson? NodeDef.ofJson?) [] (field "nodes")
  let connections ← Json.orDefault (itemsOfJson? connectionOfJson?) [] (field "connections")
  let selection ← Json.orDefault textsOfJson? [] (field "selection")
  return ⟨nodes, connections, selection⟩

/-- The description of a scene as a document. -/
def Scene.toJson (s : Scene) : Json :=
  .object
    [("nodes", .array (s.nodes.map NodeDef.toJson)),
      ("connections", .array (s.connections.map fun c => .array [c.1.toJson, c.2.toJson])),
      ("selection", .array (s.selection.map .string))]

/-! ### The graph of a scene -/

namespace Graph

/-- Adds a described node: first its attributes, then its locks. -/
def addNodeDef (g : Graph) (n : NodeDef) : Except GraphError Graph :=
  let fresh := g.addNode n.name n.kind
  let filled := n.attributes.toList.foldl (fun g e => g.addAttribute ⟨n.name, e.1⟩ e.2) fresh
  n.locked.foldlM (fun g attr => g.lock ⟨n.name, attr⟩) filled

/-- The graph of a scene: its nodes, then its connections, then its selection. -/
def ofScene (s : Scene) : Except GraphError Graph := do
  let g ← s.nodes.foldlM addNodeDef Graph.empty
  let g ← s.connections.foldlM (fun g c => g.addConnection c.1 c.2) g
  s.selection.foldlM select g

end Graph

end RigScript
