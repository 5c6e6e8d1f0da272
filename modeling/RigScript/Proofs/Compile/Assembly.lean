import RigScript.Compile.Lower
import RigScript.Proofs.Host.Course

/-!
# Lowering by blueprints

An operation becomes a node in the same way, whatever it is: the node is created, its ports are
fitted one after the other, and its output stands for the result. A blueprint says which kind of
node that is, what it is fitted with, and which port is the output. The operations of `Build` are
blueprints that are carried out; what holds of carrying out a blueprint holds of all of them.

As a first use of this, a construction ends at the first refusal of the host and reports it.

## Main definitions

* `RigScript.Fitting`: what a port or the curve of a new node gets
* `RigScript.Blueprint`: the node that an operation becomes
* `RigScript.Blueprint.build`: carrying out a blueprint
* `RigScript.BinaryOp.blueprint`: the blueprint of an operation on two operands

## Main results

* `RigScript.Build.combine_eq`, `RigScript.Build.sine_eq` and their neighbours: operations are
  blueprints that are carried out
* `RigScript.Build.upright_program`: a construction ends at the first refusal and reports it
-/

namespace RigScript

/-! ### Blueprints -/

/-- What a new node is fitted with. -/
inductive Fitting where
  /-- A value for a port. -/
  | write (port : String) (value : Value)
  /-- A connection to a port. -/
  | attach (source : Plug) (port : String)
  /-- A key of the curve. -/
  | key (k : Keyframe Float)
  /-- How the curve goes on beyond its keys. -/
  | extend (pre post : Extrapolation)

/-- The port that is fitted, if it is one. -/
def Fitting.port? : Fitting → Option String
  | write port _ => some port
  | attach _ port => some port
  | key _ => none
  | extend _ _ => none

@[simp] theorem Fitting.port?_write (port : String) (v : Value) :
    (write port v).port? = some port := rfl

@[simp] theorem Fitting.port?_key (k : Keyframe Float) : (key k).port? = none := rfl

@[simp] theorem Fitting.port?_extend (pre post : Extrapolation) :
    (extend pre post).port? = none := rfl

/-- An operand as the fitting of a port. -/
def Operand.fitting (port : String) : Operand → Fitting
  | constant x => .write port (.double x)
  | plug p => .attach p port

@[simp] theorem Operand.port?_fitting (port : String) (a : Operand) :
    (a.fitting port).port? = some port := by
  cases a <;> rfl

/-- The node that an operation becomes. -/
structure Blueprint where
  /-- The kind of the node. -/
  kind : Primitive
  /-- What it is fitted with, in order. -/
  fittings : List Fitting
  /-- The port that stands for the result. -/
  output : String

namespace Build

/-- Fits a node. -/
def fit (node : String) : Fitting → Build Unit
  | .write port v => ask (.setAttribute ⟨node, port⟩ v)
  | .attach p port => ask (.connect p ⟨node, port⟩ false)
  | .key k => ask (.createKeyframe node k)
  | .extend pre post => ask (.setExtrapolation node pre post)

/-- Fits a node with one thing after the other. -/
def fitAll (node : String) : List Fitting → Build Unit
  | [] => return ()
  | f :: fs => do
    fit node f
    fitAll node fs

end Build

/-- Creates the node, fits it, and stands for its output. -/
def Blueprint.build (b : Blueprint) : Build Operand := do
  let node ← Build.create (.primitive b.kind)
  Build.fitAll node b.fittings
  return .plug ⟨node, b.output⟩

namespace Blueprint

/-- A product or a quotient. -/
def multiplyDivide (a b : Operand) (divide : Bool) : Blueprint where
  kind := .multiplyDivide
  fittings := (if divide then [.write MultiplyDivide.operation (.int 2)] else []) ++
    [a.fitting MultiplyDivide.input1, b.fitting MultiplyDivide.input2]
  output := MultiplyDivide.output

/-- A sum or a difference. -/
def plusMinus (a b : Operand) (subtract : Bool) : Blueprint where
  kind := .plusMinusAverage
  fittings := [.write PlusMinusAverage.operation (.int (if subtract then 2 else 1)),
    a.fitting PlusMinusAverage.input1, b.fitting PlusMinusAverage.input2]
  output := PlusMinusAverage.output

/-- A remainder by a number. -/
def modulo (epsilon : Float) (a : Operand) (divisor : Float) : Blueprint where
  kind := .rampCurve
  fittings := [.key ⟨0.0, 0.0⟩, .key ⟨divisor - epsilon, 1.0⟩, .extend .cyclic .cyclic,
    a.fitting RampCurve.input]
  output := RampCurve.output

/-- A value held on one side by an operand and on the other by a number that is out of the way. -/
def clamp (value bound : Operand) (free fixed : String) (limit : Float) : Blueprint where
  kind := .clamp
  fittings := [value.fitting Clamp.input, .write fixed (.double limit), bound.fitting free]
  output := Clamp.output

/-- Twice an angle. -/
def doubler (angle : Operand) : Blueprint where
  kind := .multDoubleLinear
  fittings := [angle.fitting MultDoubleLinear.input1,
    .write MultDoubleLinear.input2 (.doubleLinear 2.0)]
  output := MultDoubleLinear.output

/-- The first component of the quaternion of an angle. -/
def quaternion (angle : Operand) : Blueprint where
  kind := .eulerToQuat
  fittings := [angle.fitting EulerToQuat.rotateX]
  output := EulerToQuat.quatX

end Blueprint

/-- The blueprint of an operation on two operands, or why there is none. -/
def BinaryOp.blueprint (epsilon : Float) (a b : Operand) :
    BinaryOp → Except ConvertError Blueprint
  | multiply => .ok (.multiplyDivide a b false)
  | divide => .ok (.multiplyDivide a b true)
  | add => .ok (.plusMinus a b false)
  | subtract => .ok (.plusMinus a b true)
  | equal => .error (.unsupported (.comparison .equal))
  | unequal => .error (.unsupported (.comparison .unequal))
  | modulo =>
    match b with
    | .plug _ => .error (.nonConstant .modulo)
    | .constant divisor =>
      if divisor.isNaN || divisor ≤ epsilon then .error (.unsupported (.divisor divisor))
      else .ok (.modulo epsilon a divisor)

namespace Build

/-- Carries out a blueprint if there is one. -/
def carryOut : Except ConvertError Blueprint → Build Operand
  | .ok b => b.build
  | .error e => throw e

theorem supply_eq (a : Operand) (node port : String) :
    supply a ⟨node, port⟩ = fit node (a.fitting port) := by
  cases a <;> rfl

theorem multiplyDivide_eq (a b : Operand) (divide : Bool) :
    multiplyDivide a b divide = (Blueprint.multiplyDivide a b divide).build := by
  cases divide <;>
    simp [multiplyDivide, Blueprint.build, Blueprint.multiplyDivide, fitAll, supply_eq, fit]

theorem plusMinus_eq (a b : Operand) (subtract : Bool) :
    plusMinus a b subtract = (Blueprint.plusMinus a b subtract).build := by
  simp [plusMinus, Blueprint.build, Blueprint.plusMinus, fitAll, supply_eq, fit]

theorem boundedAbove_eq (value bound : Operand) :
    boundedAbove value bound =
      (Blueprint.clamp value bound Clamp.max Clamp.min (-largestFloat)).build := by
  simp [boundedAbove, Blueprint.build, Blueprint.clamp, fitAll, supply_eq, fit]

theorem boundedBelow_eq (value bound : Operand) :
    boundedBelow value bound =
      (Blueprint.clamp value bound Clamp.min Clamp.max largestFloat).build := by
  simp [boundedBelow, Blueprint.build, Blueprint.clamp, fitAll, supply_eq, fit]

/-- A sine takes two nodes, of which the second is fed by the first. -/
theorem sine_eq (angle : Operand) :
    sine angle = (Blueprint.doubler angle).build >>= fun twice =>
      (Blueprint.quaternion twice).build := by
  simp [sine, Blueprint.build, Blueprint.doubler, Blueprint.quaternion, fitAll, supply_eq, fit,
    Operand.fitting]

/-- **An operation on two operands carries out its blueprint.** -/
theorem combine_eq (c : Context) (op : BinaryOp) (a b : Operand) :
    combine c op a b = carryOut (op.blueprint c.options.moduloEpsilon a b) := by
  cases op with
  | add => exact plusMinus_eq a b false
  | subtract => exact plusMinus_eq a b true
  | multiply => exact multiplyDivide_eq a b false
  | divide => exact multiplyDivide_eq a b true
  | equal => rfl
  | unequal => rfl
  | modulo =>
      cases b with
      | plug p => rfl
      | constant divisor =>
          simp only [combine, modulo, BinaryOp.blueprint]
          split
          · rfl
          · simp [carryOut, Blueprint.build, Blueprint.modulo, fitAll, supply_eq, fit]

/-! ### Refusals -/

section Upright

variable {α β : Type}

/-- A construction is **upright** when it ends at the first refusal and reports it, whichever course
it takes. -/
def Upright (b : Build α) : Prop :=
  ∀ ⦃names events out⦄, (b.run.run names).Course events out → EndsAtRefusal events out.1

namespace Upright

theorem pure (a : α) : Upright (pure a) := by
  intro names events out h
  obtain ⟨rfl, rfl⟩ := Dialogue.course_done.1 h
  exact .nil

theorem throw (e : ConvertError) : Upright (throw e : Build α) := by
  intro names events out h
  obtain ⟨rfl, rfl⟩ := Dialogue.course_done.1 h
  exact .nil

theorem ask (r : Request) : Upright (ask r) := by
  intro names events out h
  obtain ⟨reply, rest, rfl, hdone⟩ := Dialogue.course_ask.1 h
  cases reply with
  | ok reply =>
      obtain ⟨rfl, rfl⟩ := Dialogue.course_done.1 hdone
      exact .single (.ok reply)
  | error e =>
      obtain ⟨rfl, rfl⟩ := Dialogue.course_done.1 hdone
      exact .single (.error e)

/-- The second construction begins only when nothing was refused to the first. -/
theorem bind {b : Build α} {f : α → Build β} (hb : Upright b) (hf : ∀ a, Upright (f a)) :
    Upright (b >>= f) := by
  intro names events out h
  simp only [ExceptT.run_bind, StateT.run_bind, Dialogue.bind_eq, Dialogue.course_bind] at h
  obtain ⟨before, after, ⟨outcome, mid⟩, rfl, hfirst, hrest⟩ := h
  cases outcome with
  | error e =>
      obtain ⟨rfl, rfl⟩ := Dialogue.course_done.1 hrest
      rw [List.append_nil]
      exact (hb hfirst).error
  | ok a => exact .append (hb hfirst).granted_of_ok (hf a hrest)

theorem create (kind : NodeKind) : Upright (create kind) := by
  refine .bind (.ask _) fun name names events out h => ?_
  obtain ⟨rfl, rfl⟩ := Dialogue.course_done.1 h
  exact .nil

end Upright

theorem upright_fitAll (node : String) (fs : List Fitting) : Upright (fitAll node fs) := by
  induction fs with
  | nil => exact .pure ()
  | cons f fs ih =>
      refine .bind ?_ fun _ => ih
      cases f <;> exact .ask _

theorem upright_build (b : Blueprint) : Upright b.build :=
  .bind (.create _) fun node => .bind (upright_fitAll node b.fittings) fun _ => .pure _

theorem upright_combine (c : Context) (op : BinaryOp) (a b : Operand) :
    Upright (combine c op a b) := by
  rw [combine_eq]
  cases op.blueprint c.options.moduloEpsilon a b with
  | ok b => exact upright_build b
  | error e => exact .throw e

theorem upright_negate (a : Operand) : Upright (negate a) := by
  cases a with
  | constant x => exact .pure _
  | plug p =>
      rw [negate, multiplyDivide_eq]
      exact upright_build _

theorem upright_apply (name : String) (f : Builtin) (operands : List Operand) :
    Upright (apply name f operands) := by
  unfold apply
  split
  · exact boundedAbove_eq _ _ ▸ upright_build _
  · exact boundedBelow_eq _ _ ▸ upright_build _
  · exact sine_eq _ ▸ .bind (upright_build _) fun twice => upright_build _
  · exact .throw _

theorem upright_checkCall (name : String) (found : Nat) : Upright (checkCall name found) := by
  unfold checkCall
  split
  · exact .throw _
  · split
    · exact .pure _
    · exact .throw _

theorem upright_resolve (c : Context) (path : String) : Upright (resolve c path) := by
  unfold resolve
  split
  · exact .pure _
  · exact .throw _

mutual

theorem upright_lower (c : Context) (e : Expr) : Upright (lower c e) := by
  match e with
  | .number x => exact .pure _
  | .path text => exact .bind (upright_resolve c text) fun _ => .pure _
  | .brackets e => exact upright_lower c e
  | .unary .plus e => exact upright_lower c e
  | .unary .minus e => exact .bind (upright_lower c e) fun a => upright_negate a
  | .binary op left right =>
      have hboth : Upright (do
          let a ← lower c left
          let b ← lower c right
          combine c op a b) :=
        .bind (upright_lower c left) fun a => .bind (upright_lower c right) fun b =>
          upright_combine c op a b
      cases op with
      | equal => exact .throw _
      | unequal => exact .throw _
      | _ => exact hboth
  | .call name args =>
      exact .bind (upright_checkCall name args.length) fun f =>
        .bind (upright_lowerAll c args) fun operands => upright_apply name f operands

theorem upright_lowerAll (c : Context) (es : List Expr) : Upright (lowerAll c es) := by
  match es with
  | [] => exact .pure _
  | e :: es =>
      exact .bind (upright_lower c e) fun _ => .bind (upright_lowerAll c es) fun _ => .pure _

end

theorem upright_sentence (c : Context) (s : Sentence) : Upright (sentence c s) := by
  refine .bind (.bind (upright_resolve c s.target) fun plug => .bind (.ask _) fun v => ?_)
    fun dest => ?_
  · split
    · exact .pure _
    · exact .throw _
  · refine .bind (upright_lower c s.value) fun source => .bind (.ask _) fun locked => ?_
    have hassign : Upright (assign dest source) := by
      cases source with
      | constant x => exact .bind (.ask _) fun _ => .ask _
      | plug p => exact .ask _
    cases locked with
    | true => exact .bind (.ask _) fun _ => hassign
    | false => exact hassign

theorem upright_sentences (c : Context) (ss : List Sentence) : Upright (sentences c ss) := by
  induction ss with
  | nil => exact .pure ()
  | cons s ss ih => exact .bind (upright_sentence c s) fun _ => ih

/-- **A construction ends at the first refusal and reports it.** -/
theorem upright_program (c : Context) (p : Program) : Upright (program c p) := by
  unfold program
  split
  · exact .throw _
  · exact upright_sentences c _

end Upright

end Build

end RigScript
