import RigScript.ConvertError
import RigScript.Host

/-!
# Building

Building is a dialogue with a host that may fail and that keeps a list of the nodes it created,
also when it fails.

## Main definitions

* `RigScript.Build`: a dialogue that may fail and remembers created nodes
* `RigScript.Build.ask`: one request, whose refusal is a failure
* `RigScript.Build.create`: a new node, which is remembered
-/

namespace RigScript

/-- A dialogue that may fail and that remembers, in order, the nodes it created. -/
abbrev Build (α : Type) : Type :=
  ExceptT ConvertError (StateT (List String) Dialogue) α

namespace Build

/-- Makes a request; a refusal is a failure. -/
def ask (r : Request) : Build r.Reply :=
  ExceptT.mk fun created => Dialogue.ask r fun
    | .ok reply => .done (.ok reply, created)
    | .error e => .done (.error (.graph e), created)

/-- Creates a node and remembers it. -/
def create (kind : NodeKind) : Build String := do
  let name : String ← ask (.createNode kind)
  modify (· ++ [name])
  return name

/-- The dialogue of a construction: its outcome and the nodes it created. -/
def dialogue {α : Type} (b : Build α) : Dialogue (Except ConvertError α × List String) :=
  b.run.run []

end Build

end RigScript
