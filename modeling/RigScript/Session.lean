import RigScript.Convert
import RigScript.Graph.Evaluate
import RigScript.Graph.Respond
import RigScript.Host.Refusing

/-!
# Sessions

A session is a series of steps on one scene graph: setting it up, making requests of it, looking
at it, and compiling scripts into it. The steps that compile may be held with a host that stands
before the graph and refuses some requests.

## Main definitions

* `RigScript.Step`: one step
* `RigScript.Answer`: what a step answers
* `RigScript.Session.step`: a step and the session after it
* `RigScript.Session.added`: the journal entries that a step added
-/

namespace RigScript

/-- One step of a session. -/
inductive Step where
  | addNode (name : String) (kind : NodeKind)
  | addAttribute (plug : Plug) (value : Value)
  | lock (plug : Plug)
  | addConnection (source dest : Plug)
  | select (name : String)
  | clearJournal
  /-- A request of the graph itself. -/
  | request (r : Request)
  | contains (name : String)
  | kindOf (name : String)
  | nodeCount
  | journalLength
  | nodesOfKind (kind : NodeKind)
  | value (plug : Plug)
  | sourceOf (plug : Plug)
  | curve (name : String)
  | selection
  | evaluate (plug : Plug)
  | compileScript (c : Context) (script : String)
  | convertConstruct (c : Context)
  | convertAll (o : Options)

/-- What a step answers. -/
inductive Answer where
  | done
  | name (s : String)
  | names (ss : List String)
  | flag (b : Bool)
  | count (n : Nat)
  | kind (k : Option NodeKind)
  | value (v : Option Value)
  | plug (p : Option Plug)
  | plugs (ps : Option (List Plug))
  | curve (c : Option (Curve Float))
  | number (x : Float)
  | report (r : Report)
  /-- The graph refuses. -/
  | refused (e : GraphError)
  /-- A compilation fails. -/
  | failed (e : ConvertError)

/-- The answer of a host as the answer of a step. -/
def Request.answer : (r : Request) → r.Reply → Answer
  | createNode _, name => .name name
  | getAttribute _, v => .value (some v)
  | setAttribute _ _, _ => .done
  | connect _ _ _, _ => .done
  | disconnect _, _ => .done
  | isLocked _, b => .flag b
  | setLocked _ _, _ => .done
  | createKeyframe _ _, _ => .done
  | setExtrapolation _ _ _, _ => .done
  | deleteNode _, _ => .done
  | listConstructs _, names => .names names
  | listIncoming _, plugs => .plugs plugs
  | clearSelection, _ => .done

/-- The host that stands before the graph while scripts are compiled. -/
structure Mediation where
  /-- The calls that it refuses. -/
  refused : List (Method × Nat) := []
  /-- Whether it lists no connections as an empty list. -/
  listsEmpty : Bool := false

/-- The scene graph behind the host of a mediation. -/
def Mediation.host (m : Mediation) : Host (Graph × List Method) :=
  Host.refusing m.refused (if m.listsEmpty then Graph.host.listingEmpty else Graph.host)

/-- The state of a session. -/
structure Session where
  /-- The scene graph. -/
  graph : Graph
  /-- The methods that compilations have called so far. -/
  calls : List Method := []

namespace Session

/-- A change to the graph that it may refuse. -/
def setUp (s : Session) (outcome : Except GraphError Graph) : Answer × Session :=
  match outcome with
  | .ok g => (.done, { s with graph := g })
  | .error e => (.refused e, s)

/-- A compilation held with the host of a mediation. -/
def compile {α : Type} (m : Mediation) (s : Session) (a : Attempt α) (answer : α → Answer) :
    Answer × Session :=
  let (outcome, g, calls) := a.run.run m.host (s.graph, s.calls)
  match outcome with
  | .ok x => (answer x, ⟨g, calls⟩)
  | .error e => (.failed e, ⟨g, calls⟩)

/-- A step and the session after it. -/
def step (m : Mediation) (s : Session) : Step → Answer × Session
  | .addNode name kind => (.name name, { s with graph := s.graph.addNode name kind })
  | .addAttribute p v => (.done, { s with graph := s.graph.addAttribute p v })
  | .lock p => s.setUp (s.graph.lock p)
  | .addConnection source dest => s.setUp (s.graph.addConnection source dest)
  | .select name => s.setUp (s.graph.select name)
  | .clearJournal => (.done, { s with graph := s.graph.clearJournal })
  | .request r =>
    let (outcome, g) := Graph.host.respond s.graph r
    match outcome with
    | .ok reply => (r.answer reply, { s with graph := g })
    | .error e => (.refused e, { s with graph := g })
  | .contains name => (.flag (s.graph.nodes.contains name), s)
  | .kindOf name => (.kind (s.graph.kind? name), s)
  | .nodeCount => (.count s.graph.nodeCount, s)
  | .journalLength => (.count s.graph.journal.length, s)
  | .nodesOfKind kind => (.names (s.graph.nodesOfKind kind), s)
  | .value p => (.value (s.graph.value? p), s)
  | .sourceOf p => (.plug (s.graph.source? p), s)
  | .curve name => (.curve (s.graph.curve? name), s)
  | .selection => (.names s.graph.selection, s)
  | .evaluate p =>
    match s.graph.evaluate p with
    | .ok x => (.number x, s)
    | .error e => (.refused e, s)
  | .compileScript c script => s.compile m (RigScript.compileScript c script) .count
  | .convertConstruct c => s.compile m (RigScript.convertConstruct c) .count
  | .convertAll o => s.compile m (RigScript.convertAll o) .report

/-- The journal entries that a step added. -/
def added (before after : Session) : List Change :=
  after.graph.journal.drop before.graph.journal.length

end Session

end RigScript
