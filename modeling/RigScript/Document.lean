import RigScript.Convert
import RigScript.Graph.Respond
import RigScript.Json.Parser
import RigScript.Scene

/-!
# Documents of a conversion

Scenes and options come as texts, and the outcome of a conversion leaves as text: the report, and
one line for each change of the scene.

## Main definitions

* `RigScript.Options.parse`: the options in a text
* `RigScript.Scene.parse?`: the scene in a text
* `RigScript.Scene.build`: the graph of a scene that was read
* `RigScript.convertDocument`: the text that tells of a conversion
-/

namespace RigScript

/-! ### Options -/

/-- The rollback that a document names. -/
def Rollback.ofJson? : Json → Option Rollback
  | .string s => ofName? s
  | .object [(key, .null)] => ofName? key
  | _ => none
where
  /-- The rollback with a given name. -/
  ofName? (name : String) : Option Rollback :=
    if name = "none" then some .keepNodes
    else if name = "failed_construct" then some .failedConstruct
    else none

/-- The name of a rollback in documents. -/
def Rollback.label : Rollback → String
  | keepNodes => "none"
  | failedConstruct => "failed_construct"

/-- The options that a document holds; missing ones have their defaults. -/
def Options.ofJson? (j : Json) : Option Options := do
  let field ← j.record?
    ["construct_kind", "input_port", "output_port", "script_attribute", "modulo_epsilon",
      "rollback"]
  let d : Options := {}
  return {
    constructKind := ← Json.orDefault Json.toText? d.constructKind (field "construct_kind")
    input := ← Json.orDefault Json.toText? d.input (field "input_port")
    output := ← Json.orDefault Json.toText? d.output (field "output_port")
    scriptAttribute := ← Json.orDefault Json.toText? d.scriptAttribute (field "script_attribute")
    moduloEpsilon := ← Json.orDefault Json.toFloat? d.moduloEpsilon (field "modulo_epsilon")
    rollback := ← Json.orDefault Rollback.ofJson? d.rollback (field "rollback") }

/-- The options in a text, which have to follow their rules. -/
def Options.parse (text : String) : Except DocumentFault Options :=
  match (Json.parse? text).bind Options.ofJson? with
  | none => .error .unreadable
  | some o =>
    match o.validate with
    | .ok _ => .ok o
    | .error fault => .error (.options fault)

/-! ### Scenes -/

/-- The scene in a text. -/
def Scene.parse? (text : String) : Option Scene :=
  (Json.parse? text).bind Scene.ofJson?

/-- The graph of a scene, if it could be read. -/
def Scene.build (s : Option Scene) : Except ConvertError Graph :=
  match s with
  | none => .error (.document .unreadable)
  | some s =>
    match Graph.ofScene s with
    | .ok g => .ok g
    | .error e => .error (.graph e)

/-! ### Outcomes -/

/-- A report as a document. -/
def Report.toJson (r : Report) : Json :=
  .object
    [("converted", .array (r.converted.map .string)),
      ("skipped", .array (r.skipped.map .string)),
      ("nodes_created", .integer r.nodesCreated)]

/-- A key as a document; both its tangents are straight. -/
def Keyframe.toJson (k : Keyframe Float) : Json :=
  .object
    [("position", .float k.position), ("value", .float k.value),
      ("in_tangent", .string "linear"), ("out_tangent", .string "linear")]

/-- A change as a document. -/
def Change.toJson : Change → Json
  | createNode node kind =>
    .object [("op", .string "create_node"), ("node", .string node),
      ("kind", .string kind.hostType)]
  | setAttribute plug value =>
    .object [("op", .string "set_attribute"), ("plug", plug.toJson), ("value", value.toJson)]
  | connect source dest force =>
    .object [("op", .string "connect"), ("source", source.toJson), ("dest", dest.toJson),
      ("force", .bool force)]
  | disconnect dest => .object [("op", .string "disconnect"), ("dest", dest.toJson)]
  | setLocked plug locked =>
    .object [("op", .string "set_locked"), ("plug", plug.toJson), ("locked", .bool locked)]
  | createKeyframe curve key =>
    .object [("op", .string "create_keyframe"), ("curve", .string curve), ("key", key.toJson)]
  | setExtrapolation curve pre post =>
    .object [("op", .string "set_extrapolation"), ("curve", .string curve),
      ("pre", .string pre.label), ("post", .string post.label)]
  | deleteNode node => .object [("op", .string "delete_node"), ("node", .string node)]
  | clearSelection => .object [("op", .string "clear_selection")]

/-- The text that tells of a conversion of a whole scene: the report, and the changes one by one. -/
def Graph.convertText (g : Graph) (o : Options) : Except ConvertError (List String) :=
  let (outcome, g') := (convertAll o).run.run Graph.host g
  match outcome with
  | .error e => .error e
  | .ok report => .ok (report.toJson.pretty :: g'.journal.map fun c => c.toJson.render)

/-- The options in a text, or the default ones when there is no text. -/
def Options.parseOrDefault (text : Option String) : Except ConvertError Options :=
  match text with
  | none => .ok {}
  | some text =>
    match Options.parse text with
    | .ok o => .ok o
    | .error fault => .error (.document fault)

/-- Reads the options, builds the scene and converts it; the first failure counts. -/
def convertDocument (scene : Option Scene) (options : Option String) :
    Except ConvertError (List String) := do
  let o ← Options.parseOrDefault options
  let g ← Scene.build scene
  g.convertText o

end RigScript
