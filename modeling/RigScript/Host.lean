import RigScript.Curve
import RigScript.Graph.Error

/-!
# Hosts and dialogues

Compilation speaks to a scene graph through thirteen requests. Whatever answers them is a host: it
has a state, and it may refuse any request. What is said to a host is a dialogue, a tree of
requests that branches over the answers, so the same dialogue can be held with any host.

## Main definitions

* `RigScript.Request`: what can be asked of a host
* `RigScript.Request.Reply`: what a host answers when it does not refuse
* `RigScript.Host`: whatever answers requests
* `RigScript.Dialogue`: requests that depend on the answers to earlier ones
* `RigScript.Dialogue.run`: a dialogue held with a host
-/

namespace RigScript

/-- What can be asked of a host. -/
inductive Request where
  /-- Create a node; the host picks its name. -/
  | createNode (kind : NodeKind)
  | getAttribute (plug : Plug)
  | setAttribute (plug : Plug) (value : Value)
  /-- Connect two plugs; with `force` an earlier connection gives way. -/
  | connect (source dest : Plug) (force : Bool)
  /-- Remove the connection that ends in a plug, if there is one. -/
  | disconnect (dest : Plug)
  | isLocked (plug : Plug)
  | setLocked (plug : Plug) (locked : Bool)
  | createKeyframe (curve : String) (key : Keyframe Float)
  | setExtrapolation (curve : String) (pre post : Extrapolation)
  | deleteNode (node : String)
  /-- List the nodes with a type name. -/
  | listConstructs (hostType : String)
  /-- List what is connected to a plug or to a plug within it. -/
  | listIncoming (plug : Plug)
  | clearSelection
deriving DecidableEq, Repr

/-- The type of the answer to a request that is not refused. -/
abbrev Request.Reply : Request → Type
  | createNode _ => String
  | getAttribute _ => Value
  | setAttribute _ _ => Unit
  | connect _ _ _ => Unit
  | disconnect _ => Unit
  | isLocked _ => Bool
  | setLocked _ _ => Unit
  | createKeyframe _ _ => Unit
  | setExtrapolation _ _ _ => Unit
  | deleteNode _ => Unit
  | listConstructs _ => List String
  | listIncoming _ => Option (List Plug)
  | clearSelection => Unit

/-- Whatever answers requests, with states of type `σ`. -/
structure Host (σ : Type) where
  /-- The answer to a request and the state after it. -/
  respond : σ → (r : Request) → Except GraphError r.Reply × σ

/-- Requests to a host, each of which may depend on the answers to those before it. -/
inductive Dialogue (α : Type) where
  /-- The dialogue is over. -/
  | done (a : α)
  /-- A request, and how to go on after each answer. -/
  | ask (request : Request) (next : Except GraphError request.Reply → Dialogue α)

namespace Dialogue

variable {α β σ : Type}

/-- One dialogue after another. -/
def bind : Dialogue α → (α → Dialogue β) → Dialogue β
  | done a, f => f a
  | ask r next, f => ask r fun reply => (next reply).bind f

instance : Monad Dialogue where
  pure := done
  bind := Dialogue.bind

/-- The dialogue of one request. -/
def send (r : Request) : Dialogue (Except GraphError r.Reply) :=
  ask r done

/-- Holds a dialogue with a host. -/
def run (host : Host σ) : Dialogue α → σ → α × σ
  | done a, s => (a, s)
  | ask r next, s =>
    let (reply, s') := host.respond s r
    (next reply).run host s'

theorem pure_eq (a : α) : (pure a : Dialogue α) = done a := rfl

theorem bind_eq (p : Dialogue α) (f : α → Dialogue β) : p >>= f = p.bind f := rfl

@[simp] theorem run_done (host : Host σ) (a : α) (s : σ) : (done a).run host s = (a, s) := rfl

/-- Two dialogues are held one after the other. -/
theorem run_bind (host : Host σ) (p : Dialogue α) (f : α → Dialogue β) (s : σ) :
    (p.bind f).run host s = (f (p.run host s).1).run host (p.run host s).2 := by
  induction p generalizing s with
  | done a => rfl
  | ask r next ih => exact ih _ _

theorem bind_done (p : Dialogue α) : p.bind done = p := by
  induction p with
  | done a => rfl
  | ask r next ih => exact congrArg (ask r) (funext ih)

theorem bind_assoc {γ : Type} (p : Dialogue α) (f : α → Dialogue β) (k : β → Dialogue γ) :
    (p.bind f).bind k = p.bind fun a => (f a).bind k := by
  induction p with
  | done a => rfl
  | ask r next ih => exact congrArg (ask r) (funext ih)

instance : LawfulMonad Dialogue :=
  LawfulMonad.mk' Dialogue bind_done (fun _ _ => rfl) bind_assoc

end Dialogue

end RigScript
