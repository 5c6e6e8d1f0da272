import Mathlib.Logic.Relation
import Mathlib.Order.Defs.LinearOrder
import RigScript.Graph.Evaluate
import RigScript.Proofs.Graph.Requests

/-!
# The dataflow semantics of a scene graph

The meaning of a scene graph is a big-step relation between plugs and numbers. It has one rule
for a connected plug, one for each formula of a computing node, and one for a stored number, and
it knows nothing of plugs under way: a plug on a dependency cycle has no value simply because no
finite derivation ends in it.

The evaluator works with recipes and a path. The bridge between the two is that a recipe denotes
a number once its needs have values (`Recipe.Denotes`), and that a plug has a value exactly when
its recipe denotes it (`Graph.hasValue_iff`). All inductions over the semantics then have a
single case, `Graph.HasValue.recipe_induction`.

## Main definitions

* `RigScript.Node.Inverts`: a node divides or subtracts
* `RigScript.Graph.HasValue`: the big-step semantics
* `RigScript.Graph.DependsOn`: one step of dependency between plugs
* `RigScript.Graph.Nests`: one evaluation inside another

## Main results

* `RigScript.Graph.evaluate_eq_ok_iff`: evaluation computes exactly the semantics
* `RigScript.Graph.HasValue.acc`: below a plug with a value, dependency is well-founded
* `RigScript.Graph.evaluateFrom_eq_cycle`: a reported cycle is one
* `RigScript.Graph.evaluation_exact`: **the evaluator is exact**, values and cycles alike
-/

namespace RigScript

open Relation

/-! ### The semantics -/

/-- The inputs that the formulas of a kind of node read. -/
def NodeKind.inputs : NodeKind → List String
  | primitive .multiplyDivide => [MultiplyDivide.input1, MultiplyDivide.input2]
  | primitive .plusMinusAverage => [PlusMinusAverage.input1, PlusMinusAverage.input2]
  | primitive .clamp => [Clamp.input, Clamp.min, Clamp.max]
  | primitive .rampCurve => [RampCurve.input]
  | primitive .multDoubleLinear => [MultDoubleLinear.input1, MultDoubleLinear.input2]
  | primitive .eulerToQuat => [EulerToQuat.rotateX, EulerToQuat.rotateY, EulerToQuat.rotateZ]
  | other _ => []

/-- A node **inverts** what it does: the operation stored on it is two, or two and a fraction. One
that multiplies then divides, and one that adds subtracts. -/
def Node.Inverts (n : Node) (operation : String) : Prop :=
  ∃ v x, n.attributes[operation]? = some v ∧ v.toFloat? = some x ∧ 2.0 ≤ x ∧ x < 3.0

namespace Graph

/-- The **big-step semantics** of a scene graph: `g.HasValue p x` says that the plug `p` has the
value `x`. A connected plug has the value of its source, an unconnected output of a computing node
that of its formula at the inputs of the node, and any other unconnected plug its stored value.
A clamp first raises a value to its lower bound and then lowers it to its upper one, and in both a
value that is not a number gives way to the bound. -/
inductive HasValue (g : Graph) : Plug → Float → Prop
  | driven {p source : Plug} {x : Float} :
      g.source? p = some source → g.HasValue source x → g.HasValue p x
  | product {name : String} {n : Node} {x y : Float} :
      g.source? ⟨name, MultiplyDivide.output⟩ = none → g.nodes[name]? = some n →
      n.kind = .primitive .multiplyDivide →
      ¬ n.Inverts MultiplyDivide.operation →
      g.HasValue ⟨name, MultiplyDivide.input1⟩ x →
      g.HasValue ⟨name, MultiplyDivide.input2⟩ y →
      g.HasValue ⟨name, MultiplyDivide.output⟩ (x * y)
  | quotient {name : String} {n : Node} {x y : Float} :
      g.source? ⟨name, MultiplyDivide.output⟩ = none → g.nodes[name]? = some n →
      n.kind = .primitive .multiplyDivide →
      n.Inverts MultiplyDivide.operation →
      g.HasValue ⟨name, MultiplyDivide.input1⟩ x →
      g.HasValue ⟨name, MultiplyDivide.input2⟩ y →
      g.HasValue ⟨name, MultiplyDivide.output⟩ (x / y)
  | sum {name : String} {n : Node} {x y : Float} :
      g.source? ⟨name, PlusMinusAverage.output⟩ = none → g.nodes[name]? = some n →
      n.kind = .primitive .plusMinusAverage →
      ¬ n.Inverts PlusMinusAverage.operation →
      g.HasValue ⟨name, PlusMinusAverage.input1⟩ x →
      g.HasValue ⟨name, PlusMinusAverage.input2⟩ y →
      g.HasValue ⟨name, PlusMinusAverage.output⟩ (x + y)
  | difference {name : String} {n : Node} {x y : Float} :
      g.source? ⟨name, PlusMinusAverage.output⟩ = none → g.nodes[name]? = some n →
      n.kind = .primitive .plusMinusAverage →
      n.Inverts PlusMinusAverage.operation →
      g.HasValue ⟨name, PlusMinusAverage.input1⟩ x →
      g.HasValue ⟨name, PlusMinusAverage.input2⟩ y →
      g.HasValue ⟨name, PlusMinusAverage.output⟩ (x - y)
  | clamped {name : String} {n : Node} {x low high raised : Float} :
      g.source? ⟨name, Clamp.output⟩ = none → g.nodes[name]? = some n →
      n.kind = .primitive .clamp →
      g.HasValue ⟨name, Clamp.input⟩ x → g.HasValue ⟨name, Clamp.min⟩ low →
      g.HasValue ⟨name, Clamp.max⟩ high →
      raised = (if x.isNaN ∨ x < low then low else x) →
      g.HasValue ⟨name, Clamp.output⟩ (if raised.isNaN ∨ high < raised then high else raised)
  | sampled {name : String} {n : Node} {x : Float} :
      g.source? ⟨name, RampCurve.output⟩ = none → g.nodes[name]? = some n →
      n.kind = .primitive .rampCurve → g.HasValue ⟨name, RampCurve.input⟩ x →
      g.HasValue ⟨name, RampCurve.output⟩ (n.curve.sample x)
  | scaled {name : String} {n : Node} {x y : Float} :
      g.source? ⟨name, MultDoubleLinear.output⟩ = none → g.nodes[name]? = some n →
      n.kind = .primitive .multDoubleLinear →
      g.HasValue ⟨name, MultDoubleLinear.input1⟩ x →
      g.HasValue ⟨name, MultDoubleLinear.input2⟩ y →
      g.HasValue ⟨name, MultDoubleLinear.output⟩ (x * y)
  | quatX {name : String} {n : Node} {x y z : Float} :
      g.source? ⟨name, EulerToQuat.quatX⟩ = none → g.nodes[name]? = some n →
      n.kind = .primitive .eulerToQuat →
      g.HasValue ⟨name, EulerToQuat.rotateX⟩ x → g.HasValue ⟨name, EulerToQuat.rotateY⟩ y →
      g.HasValue ⟨name, EulerToQuat.rotateZ⟩ z →
      g.HasValue ⟨name, EulerToQuat.quatX⟩ ((x / 2.0).sin * (y / 2.0).cos * (z / 2.0).cos -
        (x / 2.0).cos * (y / 2.0).sin * (z / 2.0).sin)
  | quatW {name : String} {n : Node} {x y z : Float} :
      g.source? ⟨name, EulerToQuat.quatW⟩ = none → g.nodes[name]? = some n →
      n.kind = .primitive .eulerToQuat →
      g.HasValue ⟨name, EulerToQuat.rotateX⟩ x → g.HasValue ⟨name, EulerToQuat.rotateY⟩ y →
      g.HasValue ⟨name, EulerToQuat.rotateZ⟩ z →
      g.HasValue ⟨name, EulerToQuat.quatW⟩ ((x / 2.0).cos * (y / 2.0).cos * (z / 2.0).cos +
        (x / 2.0).sin * (y / 2.0).sin * (z / 2.0).sin)
  | stored {p : Plug} {n : Node} {v : Value} {x : Float} :
      g.source? p = none → g.nodes[p.node]? = some n → p.attr ∉ n.kind.outputs →
      n.attributes[p.attr]? = some v → v.toFloat? = some x → g.HasValue p x

/-- One step of **dependency**: a connected plug depends on its source, and an unconnected output
of a computing node on the inputs of the node. -/
inductive DependsOn (g : Graph) : Plug → Plug → Prop
  | source {p source : Plug} : g.source? p = some source → g.DependsOn p source
  | input {p : Plug} {n : Node} {attr : String} :
      g.source? p = none → g.nodes[p.node]? = some n → p.attr ∈ n.kind.outputs →
      attr ∈ n.kind.inputs → g.DependsOn p ⟨p.node, attr⟩

/-- One evaluation **inside another**: a plug that is not yet under way is taken under way, and
what it depends on is evaluated next. States pair the plugs under way with the plug at hand. -/
inductive Nests (g : Graph) : List Plug × Plug → List Plug × Plug → Prop
  | step {path : List Plug} {p q : Plug} :
      p ∉ path → g.DependsOn p q → g.Nests (p :: path, q) (path, p)

end Graph

/-! ### The formulas of the evaluator -/

open Float.Model (UnpackedFloat)

/-- What is not a number is neither less nor greater than anything. -/
theorem isNaN_of_lt {x y : Float} (h : x < y) : x.isNaN = false ∧ y.isNaN = false := by
  have hlt : x.toModel.unpack.compare y.toModel.unpack = some .lt :=
    beq_iff_eq.1 (of_decide_eq_true h)
  have hleft (v : UnpackedFloat) : UnpackedFloat.notANumber.compare v = none := by cases v <;> rfl
  have hright (v : UnpackedFloat) : v.compare .notANumber = none := by cases v <;> rfl
  change x.toModel.unpack.isNaN = false ∧ y.toModel.unpack.isNaN = false
  constructor
  · cases hx : x.toModel.unpack with
    | notANumber => simp [hx, hleft] at hlt
    | _ => rfl
  · cases hy : y.toModel.unpack with
    | notANumber => simp [hy, hright] at hlt
    | _ => rfl

/-- The greater of two numbers is the first, unless that is not a number or less than the second. -/
theorem maxNumber_eq (a b : Float) : maxNumber a b = if a.isNaN ∨ a < b then b else a := by
  by_cases hlt : a < b
  · obtain ⟨ha, hb⟩ := isNaN_of_lt hlt
    simp only [maxNumber, ha, hb, hlt, Bool.false_eq_true, if_false, if_true, or_true]
  · simp only [maxNumber, hlt, if_false, ite_self, or_false]

/-- The smaller of two numbers is the first, unless that is not a number or above the second. -/
theorem minNumber_eq (a b : Float) : minNumber a b = if a.isNaN ∨ b < a then b else a := by
  by_cases hlt : b < a
  · obtain ⟨hb, ha⟩ := isNaN_of_lt hlt
    simp only [minNumber, ha, hb, hlt, Bool.false_eq_true, if_false, if_true, or_true]
  · simp only [minNumber, hlt, if_false, ite_self, or_false]

/-- Holding a value between two bounds is raising it to one and then lowering it to the other. -/
theorem clampNumber_eq {x low high raised : Float}
    (h : raised = if x.isNaN ∨ x < low then low else x) :
    clampNumber x low high = if raised.isNaN ∨ high < raised then high else raised := by
  rw [clampNumber, maxNumber_eq, ← h, minNumber_eq]

/-- The second formula of a kind is that of the nodes that invert. -/
theorem Node.selectsSecond_iff {n : Node} {operation : String} :
    n.selectsSecond operation = true ↔ n.Inverts operation := by
  unfold selectsSecond Inverts
  cases n.attributes[operation]? with
  | none => simp
  | some v => cases hx : v.toFloat? <;> simp [hx]

/-! ### Recipes and what they denote -/

/-- What a recipe **denotes** once the values of its needs are known. -/
def Recipe.Denotes (val : Plug → Float → Prop) : Recipe → Float → Prop
  | stored y, x => y = x
  | follow source, x => val source x
  | compute₁ f a, x => ∃ y, val a y ∧ f y = x
  | compute₂ f a b, x => ∃ y z, val a y ∧ val b z ∧ f y z = x
  | compute₃ f a b c, x => ∃ y z w, val a y ∧ val b z ∧ val c w ∧ f y z w = x

/-- A recipe denotes the same when its needs have the same values. -/
theorem Recipe.Denotes.mono {val val' : Plug → Float → Prop} {r : Recipe} {x : Float}
    (h : r.Denotes val x) (hval : ∀ q ∈ r.needs, ∀ y, val q y → val' q y) :
    r.Denotes val' x := by
  cases r with
  | stored y => exact h
  | follow source => exact hval source (by simp [Recipe.needs]) x h
  | compute₁ f a =>
      obtain ⟨y, hy, rfl⟩ := h
      exact ⟨y, hval a (by simp [Recipe.needs]) y hy, rfl⟩
  | compute₂ f a b =>
      obtain ⟨y, z, hy, hz, rfl⟩ := h
      exact ⟨y, z, hval a (by simp [Recipe.needs]) y hy, hval b (by simp [Recipe.needs]) z hz, rfl⟩
  | compute₃ f a b c =>
      obtain ⟨y, z, w, hy, hz, hw, rfl⟩ := h
      exact ⟨y, z, w, hval a (by simp [Recipe.needs]) y hy, hval b (by simp [Recipe.needs]) z hz,
        hval c (by simp [Recipe.needs]) w hw, rfl⟩

/-- Everything that a recipe needs has a value when the recipe denotes one. -/
theorem Recipe.Denotes.exists_of_mem_needs {val : Plug → Float → Prop} {r : Recipe} {x : Float}
    (h : r.Denotes val x) {q : Plug} (hq : q ∈ r.needs) : ∃ y, val q y := by
  cases r with
  | stored y => simp [Recipe.needs] at hq
  | follow source =>
      obtain rfl : q = source := by simpa [Recipe.needs] using hq
      exact ⟨x, h⟩
  | compute₁ f a =>
      obtain ⟨y, hy, -⟩ := h
      obtain rfl : q = a := by simpa [Recipe.needs] using hq
      exact ⟨y, hy⟩
  | compute₂ f a b =>
      obtain ⟨y, z, hy, hz, -⟩ := h
      obtain rfl | rfl : q = a ∨ q = b := by simpa [Recipe.needs] using hq
      · exact ⟨y, hy⟩
      · exact ⟨z, hz⟩
  | compute₃ f a b c =>
      obtain ⟨y, z, w, hy, hz, hw, -⟩ := h
      obtain rfl | rfl | rfl : q = a ∨ q = b ∨ q = c := by simpa [Recipe.needs] using hq
      · exact ⟨y, hy⟩
      · exact ⟨z, hz⟩
      · exact ⟨w, hw⟩

namespace Node

section Formulas

variable {n : Node}

theorem formula?_multiplyDivide (h : n.kind = .primitive .multiplyDivide) (name : String) :
    n.formula? ⟨name, MultiplyDivide.output⟩ =
      some (.compute₂ (if n.selectsSecond MultiplyDivide.operation then (· / ·) else (· * ·))
        ⟨name, MultiplyDivide.input1⟩ ⟨name, MultiplyDivide.input2⟩) := by
  simp [formula?, h]

theorem formula?_plusMinusAverage (h : n.kind = .primitive .plusMinusAverage) (name : String) :
    n.formula? ⟨name, PlusMinusAverage.output⟩ =
      some (.compute₂ (if n.selectsSecond PlusMinusAverage.operation then (· - ·) else (· + ·))
        ⟨name, PlusMinusAverage.input1⟩ ⟨name, PlusMinusAverage.input2⟩) := by
  simp [formula?, h]

theorem formula?_clamp (h : n.kind = .primitive .clamp) (name : String) :
    n.formula? ⟨name, Clamp.output⟩ =
      some (.compute₃ clampNumber ⟨name, Clamp.input⟩ ⟨name, Clamp.min⟩ ⟨name, Clamp.max⟩) := by
  simp [formula?, h]

theorem formula?_rampCurve (h : n.kind = .primitive .rampCurve) (name : String) :
    n.formula? ⟨name, RampCurve.output⟩ =
      some (.compute₁ n.curve.sample ⟨name, RampCurve.input⟩) := by
  simp [formula?, h]

theorem formula?_multDoubleLinear (h : n.kind = .primitive .multDoubleLinear) (name : String) :
    n.formula? ⟨name, MultDoubleLinear.output⟩ =
      some (.compute₂ (· * ·) ⟨name, MultDoubleLinear.input1⟩
        ⟨name, MultDoubleLinear.input2⟩) := by
  simp [formula?, h]

theorem formula?_quatX (h : n.kind = .primitive .eulerToQuat) (name : String) :
    n.formula? ⟨name, EulerToQuat.quatX⟩ =
      some (.compute₃ quaternionX ⟨name, EulerToQuat.rotateX⟩ ⟨name, EulerToQuat.rotateY⟩
        ⟨name, EulerToQuat.rotateZ⟩) := by
  simp [formula?, h]

theorem formula?_quatW (h : n.kind = .primitive .eulerToQuat) (name : String) :
    n.formula? ⟨name, EulerToQuat.quatW⟩ =
      some (.compute₃ quaternionW ⟨name, EulerToQuat.rotateX⟩ ⟨name, EulerToQuat.rotateY⟩
        ⟨name, EulerToQuat.rotateZ⟩) := by
  have hne : EulerToQuat.quatW ≠ EulerToQuat.quatX := by decide
  simp [formula?, h, hne]

end Formulas

/-- Every output of a kind has a formula, and nothing else has one. -/
theorem formula?_eq_none_iff {n : Node} {p : Plug} :
    n.formula? p = none ↔ p.attr ∉ n.kind.outputs := by
  obtain ⟨kind, attributes, locked, curve⟩ := n
  rcases kind with prim | t
  · cases prim with
    | eulerToQuat =>
        by_cases hx : p.attr = EulerToQuat.quatX <;> simp [formula?, NodeKind.outputs, hx]
    | _ => simp [formula?, NodeKind.outputs]
  · simp [formula?, NodeKind.outputs]

/-- A formula needs the inputs of its node. -/
theorem needs_of_formula? {n : Node} {p : Plug} {r : Recipe} (h : n.formula? p = some r) :
    r.needs = n.kind.inputs.map fun attr => ⟨p.node, attr⟩ := by
  obtain ⟨kind, attributes, locked, curve⟩ := n
  rcases kind with prim | t
  · cases prim <;> simp only [formula?] at h <;> grind [Recipe.needs, NodeKind.inputs]
  · simp [formula?] at h

end Node

namespace Graph

variable {g : Graph} {p q : Plug}

/-- The recipe of a connected plug. -/
theorem recipe_of_source {source : Plug} (h : g.source? p = some source) :
    g.recipe p = .ok (.follow source) := by
  simp only [source?] at h
  simp only [recipe, h]

/-- The recipe of an unconnected plug with a formula. -/
theorem recipe_of_formula {n : Node} {r : Recipe} (hs : g.source? p = none)
    (hn : g.nodes[p.node]? = some n) (hf : n.formula? p = some r) : g.recipe p = .ok r := by
  simp only [source?] at hs
  simp only [recipe, hs, node, hn, bind, Except.bind, hf, pure, Except.pure]

/-- The recipe of an unconnected plug without a formula is what is stored. -/
theorem recipe_of_stored {n : Node} {v : Value} {x : Float} (hs : g.source? p = none)
    (hn : g.nodes[p.node]? = some n) (hout : p.attr ∉ n.kind.outputs)
    (hv : n.attributes[p.attr]? = some v) (hx : v.toFloat? = some x) :
    g.recipe p = .ok (.stored x) := by
  simp only [source?] at hs
  simp only [recipe, hs, node, hn, bind, Except.bind, Node.formula?_eq_none_iff.2 hout, hv, hx,
    pure, Except.pure]

/-- Where a recipe comes from: a connection, a formula, or what is stored. -/
theorem recipe_cases {r : Recipe} (h : g.recipe p = .ok r) :
    (∃ source, g.source? p = some source ∧ r = .follow source) ∨
    (g.source? p = none ∧ ∃ n, g.nodes[p.node]? = some n ∧
      (n.formula? p = some r ∨
        p.attr ∉ n.kind.outputs ∧ ∃ v x, n.attributes[p.attr]? = some v ∧ v.toFloat? = some x ∧
          r = .stored x)) := by
  simp only [recipe] at h
  split at h
  case h_1 source hs => exact .inl ⟨source, hs, by cases h; rfl⟩
  case h_2 hs =>
    refine .inr ⟨hs, ?_⟩
    cases hn : g.nodes[p.node]? with
    | none => simp [node, hn, bind, Except.bind] at h
    | some n =>
        refine ⟨n, rfl, ?_⟩
        simp only [node, hn, bind, Except.bind] at h
        split at h
        case h_1 r' hf => exact .inl (by cases h; exact hf)
        case h_2 hf =>
          split at h
          case h_1 => cases h
          case h_2 v hv =>
            split at h
            case h_1 x hx =>
              exact .inr ⟨Node.formula?_eq_none_iff.1 hf, v, x, hv, hx, by cases h; rfl⟩
            case h_2 => cases h

/-- The recipe of a plug never speaks of cycles. -/
theorem recipe_ne_cycle : g.recipe p ≠ .error (.evaluation q .cycle) := by
  intro h
  simp only [recipe] at h
  split at h
  · cases h
  · cases hn : g.nodes[p.node]? with
    | none => simp [node, hn, bind, Except.bind] at h
    | some n =>
        simp only [node, hn, bind, Except.bind] at h
        split at h
        · cases h
        · split at h
          · cases h
          · split at h <;> cases h

/-- Dependency is need: a plug depends on what its recipe needs. -/
theorem dependsOn_iff : g.DependsOn p q ↔ ∃ r, g.recipe p = .ok r ∧ q ∈ r.needs := by
  constructor
  · rintro (⟨hs⟩ | ⟨hs, hn, hout, hin⟩)
    · exact ⟨_, recipe_of_source hs, by simp [Recipe.needs]⟩
    · rename_i n attr
      cases hf : n.formula? p with
      | none => exact absurd hout (Node.formula?_eq_none_iff.1 hf)
      | some r =>
          refine ⟨r, recipe_of_formula hs hn hf, ?_⟩
          rw [Node.needs_of_formula? hf]
          exact List.mem_map.2 ⟨attr, hin, rfl⟩
  · rintro ⟨r, hr, hq⟩
    obtain ⟨source, hs, rfl⟩ | ⟨hs, n, hn, hf | ⟨-, v, x, -, -, rfl⟩⟩ := recipe_cases hr
    · obtain rfl : q = source := by simpa [Recipe.needs] using hq
      exact .source hs
    · rw [Node.needs_of_formula? hf] at hq
      obtain ⟨attr, hin, rfl⟩ := List.mem_map.1 hq
      exact .input hs hn (Node.mem_outputs_of_formula? hf) hin
    · simp [Recipe.needs] at hq

end Graph

/-! ### The semantics in terms of recipes -/

namespace Graph

variable {g : Graph} {p q : Plug} {x : Float}

/-- A formula of a computing node gives its output a value once the inputs have values. -/
theorem HasValue.of_formula {n : Node} {r : Recipe} (hs : g.source? p = none)
    (hn : g.nodes[p.node]? = some n) (hf : n.formula? p = some r)
    (hd : r.Denotes g.HasValue x) : g.HasValue p x := by
  obtain ⟨name, attr⟩ := p
  simp only [Node.formula?] at hf
  split at hf
  case h_1 hk =>
    split at hf
    case isTrue ha =>
      cases hf
      obtain rfl : attr = MultiplyDivide.output := ha
      obtain ⟨y, z, hy, hz, rfl⟩ := hd
      by_cases hop : n.selectsSecond MultiplyDivide.operation = true
      · rw [if_pos hop]
        exact .quotient hs hn hk (Node.selectsSecond_iff.1 hop) hy hz
      · rw [if_neg hop]
        exact .product hs hn hk (mt Node.selectsSecond_iff.2 hop) hy hz
    case isFalse => cases hf
  case h_2 hk =>
    split at hf
    case isTrue ha =>
      cases hf
      obtain rfl : attr = PlusMinusAverage.output := ha
      obtain ⟨y, z, hy, hz, rfl⟩ := hd
      by_cases hop : n.selectsSecond PlusMinusAverage.operation = true
      · rw [if_pos hop]
        exact .difference hs hn hk (Node.selectsSecond_iff.1 hop) hy hz
      · rw [if_neg hop]
        exact .sum hs hn hk (mt Node.selectsSecond_iff.2 hop) hy hz
    case isFalse => cases hf
  case h_3 hk =>
    split at hf
    case isTrue ha =>
      cases hf
      obtain rfl : attr = Clamp.output := ha
      obtain ⟨y, z, w, hy, hz, hw, rfl⟩ := hd
      rw [clampNumber_eq rfl]
      exact .clamped hs hn hk hy hz hw rfl
    case isFalse => cases hf
  case h_4 hk =>
    split at hf
    case isTrue ha =>
      cases hf
      obtain rfl : attr = RampCurve.output := ha
      obtain ⟨y, hy, rfl⟩ := hd
      exact .sampled hs hn hk hy
    case isFalse => cases hf
  case h_5 hk =>
    split at hf
    case isTrue ha =>
      cases hf
      obtain rfl : attr = MultDoubleLinear.output := ha
      obtain ⟨y, z, hy, hz, rfl⟩ := hd
      exact .scaled hs hn hk hy hz
    case isFalse => cases hf
  case h_6 hk =>
    split at hf
    case isTrue ha =>
      cases hf
      obtain rfl : attr = EulerToQuat.quatX := ha
      obtain ⟨y, z, w, hy, hz, hw, rfl⟩ := hd
      exact .quatX hs hn hk hy hz hw
    case isFalse =>
      split at hf
      case isTrue ha =>
        cases hf
        obtain rfl : attr = EulerToQuat.quatW := ha
        obtain ⟨y, z, w, hy, hz, hw, rfl⟩ := hd
        exact .quatW hs hn hk hy hz hw
      case isFalse => cases hf
  case h_7 => cases hf

/-- A plug whose recipe denotes a number has that number as its value. -/
theorem HasValue.of_recipe {r : Recipe} (hr : g.recipe p = .ok r)
    (hd : r.Denotes g.HasValue x) : g.HasValue p x := by
  obtain ⟨source, hs, rfl⟩ | ⟨hs, n, hn, hf | ⟨hout, v, y, hv, hy, rfl⟩⟩ := recipe_cases hr
  · exact .driven hs hd
  · exact .of_formula hs hn hf hd
  · obtain rfl : y = x := hd
    exact .stored hs hn hout hv hy

/-- **Induction over recipes.** To prove a property of all plugs that have values, it is enough to
prove it of a plug whose recipe denotes a number under the assumption that the property holds of
everything the recipe needs: the rules of the semantics are one rule. -/
@[elab_as_elim]
theorem HasValue.recipe_induction {motive : Plug → Float → Prop}
    (h : g.HasValue p x)
    (step : ∀ p r x, g.recipe p = .ok r →
      r.Denotes (fun q y => g.HasValue q y ∧ motive q y) x → motive p x) : motive p x := by
  induction h with
  | driven hs hv ih => exact step _ _ _ (recipe_of_source hs) ⟨hv, ih⟩
  | product hs hn hk hop hx hy ihx ihy =>
      refine step _ _ _ (recipe_of_formula hs hn (Node.formula?_multiplyDivide hk _)) ?_
      rw [if_neg (mt Node.selectsSecond_iff.1 hop)]
      exact ⟨_, _, ⟨hx, ihx⟩, ⟨hy, ihy⟩, rfl⟩
  | quotient hs hn hk hop hx hy ihx ihy =>
      refine step _ _ _ (recipe_of_formula hs hn (Node.formula?_multiplyDivide hk _)) ?_
      rw [if_pos (Node.selectsSecond_iff.2 hop)]
      exact ⟨_, _, ⟨hx, ihx⟩, ⟨hy, ihy⟩, rfl⟩
  | sum hs hn hk hop hx hy ihx ihy =>
      refine step _ _ _ (recipe_of_formula hs hn (Node.formula?_plusMinusAverage hk _)) ?_
      rw [if_neg (mt Node.selectsSecond_iff.1 hop)]
      exact ⟨_, _, ⟨hx, ihx⟩, ⟨hy, ihy⟩, rfl⟩
  | difference hs hn hk hop hx hy ihx ihy =>
      refine step _ _ _ (recipe_of_formula hs hn (Node.formula?_plusMinusAverage hk _)) ?_
      rw [if_pos (Node.selectsSecond_iff.2 hop)]
      exact ⟨_, _, ⟨hx, ihx⟩, ⟨hy, ihy⟩, rfl⟩
  | clamped hs hn hk hx hy hz hraised ihx ihy ihz =>
      exact step _ _ _ (recipe_of_formula hs hn (Node.formula?_clamp hk _))
        ⟨_, _, _, ⟨hx, ihx⟩, ⟨hy, ihy⟩, ⟨hz, ihz⟩, clampNumber_eq hraised⟩
  | sampled hs hn hk hx ihx =>
      exact step _ _ _ (recipe_of_formula hs hn (Node.formula?_rampCurve hk _))
        ⟨_, ⟨hx, ihx⟩, rfl⟩
  | scaled hs hn hk hx hy ihx ihy =>
      exact step _ _ _ (recipe_of_formula hs hn (Node.formula?_multDoubleLinear hk _))
        ⟨_, _, ⟨hx, ihx⟩, ⟨hy, ihy⟩, rfl⟩
  | quatX hs hn hk hx hy hz ihx ihy ihz =>
      exact step _ _ _ (recipe_of_formula hs hn (Node.formula?_quatX hk _))
        ⟨_, _, _, ⟨hx, ihx⟩, ⟨hy, ihy⟩, ⟨hz, ihz⟩, rfl⟩
  | quatW hs hn hk hx hy hz ihx ihy ihz =>
      exact step _ _ _ (recipe_of_formula hs hn (Node.formula?_quatW hk _))
        ⟨_, _, _, ⟨hx, ihx⟩, ⟨hy, ihy⟩, ⟨hz, ihz⟩, rfl⟩
  | stored hs hn hout hv hx => exact step _ _ _ (recipe_of_stored hs hn hout hv hx) rfl

/-- A plug has a value exactly when its recipe denotes it. -/
theorem hasValue_iff : g.HasValue p x ↔ ∃ r, g.recipe p = .ok r ∧ r.Denotes g.HasValue x := by
  constructor
  · intro h
    refine h.recipe_induction fun p r x hr hd => ?_
    exact ⟨r, hr, hd.mono fun q _ y hq => hq.1⟩
  · rintro ⟨r, hr, hd⟩
    exact .of_recipe hr hd

/-- Below a plug with a value, dependency is **well-founded**. -/
theorem HasValue.acc (h : g.HasValue p x) : Acc (fun a b => g.DependsOn b a) p := by
  refine h.recipe_induction fun p r x hr hd => ?_
  refine Acc.intro p fun q hq => ?_
  obtain ⟨r', hr', hmem⟩ := dependsOn_iff.1 hq
  obtain rfl : r' = r := by simpa [hr'] using hr
  obtain ⟨y, -, hacc⟩ := hd.exists_of_mem_needs hmem
  exact hacc

/-- A plug with a value does not depend on itself. -/
theorem HasValue.not_cyclic (h : g.HasValue p x) : ¬ TransGen g.DependsOn p p := by
  intro hcyc
  have hacc : Acc (TransGen fun a b => g.DependsOn b a) p := h.acc.transGen
  clear h
  induction hacc with
  | intro p _ ih => exact ih p (transGen_swap.1 hcyc) hcyc

/-- What a plug with a value depends on has a value. -/
theorem HasValue.of_dependsOn (h : g.HasValue p x) (hq : g.DependsOn p q) :
    ∃ y, g.HasValue q y := by
  obtain ⟨r, hr, hd⟩ := hasValue_iff.1 h
  obtain ⟨r', hr', hmem⟩ := dependsOn_iff.1 hq
  obtain rfl : r' = r := by simpa [hr'] using hr
  exact hd.exists_of_mem_needs hmem

/-- Every plug that a plug with a value reaches has a value. -/
theorem HasValue.of_reaches (h : g.HasValue p x) (hq : ReflTransGen g.DependsOn p q) :
    ∃ y, g.HasValue q y := by
  induction hq with
  | refl => exact ⟨x, h⟩
  | tail _ hstep ih =>
      obtain ⟨y, hy⟩ := ih
      exact hy.of_dependsOn hstep

/-! ### The evaluator in terms of recipes -/

/-- Evaluation succeeds when the plug is not under way and its recipe denotes the result, given
what evaluation yields for the needs with the plug under way. -/
theorem evaluateFrom_eq_ok_iff {path : List Plug} :
    g.evaluateFrom path p = .ok x ↔
      p ∉ path ∧ ∃ r, g.recipe p = .ok r ∧
        r.Denotes (fun q y => g.evaluateFrom (p :: path) q = .ok y) x := by
  rw [evaluateFrom]
  by_cases hp : p ∈ path
  · simp [hp]
  · simp only [hp, dite_false, not_false_eq_true, true_and]
    cases hr : g.recipe p with
    | error e => simp
    | ok r =>
        cases r <;> simp [bind_eq_ok_iff, Recipe.Denotes, pure, Except.pure]

/-- Evaluation fails because the plug is under way, because it has no recipe, or because
something that it depends on fails. -/
theorem evaluateFrom_eq_error {path : List Plug} {e : GraphError}
    (h : g.evaluateFrom path p = .error e) :
    (p ∈ path ∧ e = .evaluation p .cycle) ∨
    (p ∉ path ∧ (g.recipe p = .error e ∨
      ∃ q, g.DependsOn p q ∧ g.evaluateFrom (p :: path) q = .error e)) := by
  by_cases hp : p ∈ path
  · rw [evaluateFrom, dif_pos hp] at h
    cases h
    exact .inl ⟨hp, rfl⟩
  · refine .inr ⟨hp, ?_⟩
    have hneed : ∀ {r : Recipe} {q : Plug}, g.recipe p = .ok r → q ∈ r.needs → g.DependsOn p q :=
      fun hr hq => dependsOn_iff.2 ⟨_, hr, hq⟩
    rw [evaluateFrom, dif_neg hp] at h
    -- The needs are evaluated in order, and the first failure is the outcome.
    split at h
    case h_1 hr =>
      cases h
      exact .inl hr
    case h_2 => cases h
    case h_3 source hr => exact .inr ⟨source, hneed hr (by simp [Recipe.needs]), h⟩
    case h_4 f a hr =>
      obtain h | ⟨x, -, h⟩ := bind_eq_error_iff.1 h
      · exact .inr ⟨a, hneed hr (by simp [Recipe.needs]), h⟩
      · cases h
    case h_5 f a b hr =>
      obtain h | ⟨x, -, h⟩ := bind_eq_error_iff.1 h
      · exact .inr ⟨a, hneed hr (by simp [Recipe.needs]), h⟩
      obtain h | ⟨y, -, h⟩ := bind_eq_error_iff.1 h
      · exact .inr ⟨b, hneed hr (by simp [Recipe.needs]), h⟩
      · cases h
    case h_6 f a b c hr =>
      obtain h | ⟨x, -, h⟩ := bind_eq_error_iff.1 h
      · exact .inr ⟨a, hneed hr (by simp [Recipe.needs]), h⟩
      obtain h | ⟨y, -, h⟩ := bind_eq_error_iff.1 h
      · exact .inr ⟨b, hneed hr (by simp [Recipe.needs]), h⟩
      obtain h | ⟨z, -, h⟩ := bind_eq_error_iff.1 h
      · exact .inr ⟨c, hneed hr (by simp [Recipe.needs]), h⟩
      · cases h

/-- Evaluations do not nest for ever: each takes one more of the dependent plugs under way. -/
theorem nests_wellFounded (g : Graph) : WellFounded g.Nests := by
  refine Subrelation.wf (r := InvImage (· < ·) fun s => g.remaining s.1) ?_
    (InvImage.wf _ Nat.lt_wfRel.wf)
  rintro _ _ ⟨hp, hdep⟩
  obtain ⟨r, hr, hq⟩ := dependsOn_iff.1 hdep
  exact remaining_cons_lt hp (mem_dependentPlugs hr (List.ne_nil_of_mem hq))

/-! ### Soundness and completeness -/

/-- **Soundness.** What evaluation yields is the value of the plug, whatever is under way. -/
theorem HasValue.of_evaluateFrom {path : List Plug} (h : g.evaluateFrom path p = .ok x) :
    g.HasValue p x := by
  -- Well-founded induction on the nesting: the needs are evaluated one level further in.
  suffices hall : ∀ (s : List Plug × Plug) (x : Float),
      g.evaluateFrom s.1 s.2 = .ok x → g.HasValue s.2 x from hall (path, p) x h
  intro s
  induction s using g.nests_wellFounded.induction with
  | _ s ih =>
      intro x h
      obtain ⟨hp, r, hr, hd⟩ := evaluateFrom_eq_ok_iff.1 h
      refine .of_recipe hr (hd.mono fun q hq y hy => ?_)
      exact ih (s.2 :: s.1, q) (.step hp (dependsOn_iff.2 ⟨r, hr, hq⟩)) y hy

/-- **Completeness.** The value of a plug is found as long as the plug reaches nothing that is
under way. -/
theorem HasValue.evaluateFrom (h : g.HasValue p x) :
    ∀ path, (∀ q ∈ path, ¬ ReflTransGen g.DependsOn p q) → g.evaluateFrom path p = .ok x := by
  refine h.recipe_induction fun p r x hr hd path hpath => ?_
  refine evaluateFrom_eq_ok_iff.2 ⟨fun hp => hpath p hp .refl, r, hr, ?_⟩
  refine hd.mono fun q hq y hy => hy.2 (p :: path) fun q' hq' hreach => ?_
  have hdep : g.DependsOn p q := dependsOn_iff.2 ⟨r, hr, hq⟩
  obtain rfl | hq' := List.mem_cons.1 hq'
  · -- Coming back to the plug itself would close a cycle through a plug with a value.
    exact hy.1.not_cyclic (TransGen.tail' hreach hdep)
  · exact hpath q' hq' (.head hdep hreach)

/-- **Evaluation computes exactly the semantics.** -/
theorem evaluate_eq_ok_iff : g.evaluate p = .ok x ↔ g.HasValue p x :=
  ⟨.of_evaluateFrom, fun h => h.evaluateFrom [] (by simp)⟩

/-- A value is unique. -/
theorem HasValue.unique {y : Float} (hx : g.HasValue p x) (hy : g.HasValue p y) : x = y := by
  rw [← evaluate_eq_ok_iff] at hx hy
  exact Except.ok.inj (hx.symm.trans hy)

/-- A plug that is **reported** as a cycle is reached, and it is under way or depends on
itself. -/
theorem evaluateFrom_eq_cycle {path : List Plug}
    (h : g.evaluateFrom path p = .error (.evaluation q .cycle)) :
    ReflTransGen g.DependsOn p q ∧ (q ∈ path ∨ TransGen g.DependsOn q q) := by
  suffices hall : ∀ s : List Plug × Plug,
      g.evaluateFrom s.1 s.2 = .error (.evaluation q .cycle) →
      ReflTransGen g.DependsOn s.2 q ∧ (q ∈ s.1 ∨ TransGen g.DependsOn q q) from hall (path, p) h
  intro s
  induction s using g.nests_wellFounded.induction with
  | _ s ih =>
      obtain ⟨path, p⟩ := s
      intro h
      obtain ⟨hp, heq⟩ | ⟨hp, hr | ⟨a, hdep, ha⟩⟩ := evaluateFrom_eq_error h
      · cases heq
        exact ⟨.refl, .inl hp⟩
      · exact absurd hr recipe_ne_cycle
      · obtain ⟨hreach, hin⟩ := ih (p :: path, a) (.step hp hdep) ha
        refine ⟨.head hdep hreach, ?_⟩
        obtain hmem | hcyc := hin
        · obtain rfl | hmem := List.mem_cons.1 hmem
          · exact .inr (TransGen.head' hdep hreach)
          · exact .inl hmem
        · exact .inr hcyc

/-- **The evaluator is exact.** On every scene graph, cyclic or not, evaluations do not nest for
ever, and a plug evaluates to a number exactly when the semantics gives it that number. A plug from
which a cycle is reached never evaluates to a number, and a plug that is reported as a cycle is
reached from the evaluated one and depends on itself. -/
theorem evaluation_exact (g : Graph) (p : Plug) :
    WellFounded g.Nests ∧
    (∀ x, g.evaluate p = .ok x ↔ g.HasValue p x) ∧
    (∀ q, ReflTransGen g.DependsOn p q → TransGen g.DependsOn q q →
      ∀ x, g.evaluate p ≠ .ok x) ∧
    (∀ q, g.evaluate p = .error (.evaluation q .cycle) →
      ReflTransGen g.DependsOn p q ∧ TransGen g.DependsOn q q) := by
  refine ⟨g.nests_wellFounded, fun x => evaluate_eq_ok_iff, ?_, ?_⟩
  · intro q hreach hcyc x hx
    obtain ⟨y, hy⟩ := (evaluate_eq_ok_iff.1 hx).of_reaches hreach
    exact hy.not_cyclic hcyc
  · intro q hq
    obtain ⟨hreach, hpath | hcyc⟩ := evaluateFrom_eq_cycle hq
    · cases hpath
    · exact ⟨hreach, hcyc⟩

/-- A plug that drives itself, and a second plug that it drives. -/
def selfDriven : Graph where
  nodes := ∅
  connections := ((∅ : Std.ExtTreeMap Plug Plug).insert ⟨"a", "x"⟩ ⟨"a", "x"⟩).insert
    ⟨"a", "y"⟩ ⟨"a", "x"⟩
  selection := []
  journal := []

/-- The cycle is found from outside it, and it is the plug that drives itself that is reported. -/
theorem evaluation_exact_selfDriven :
    selfDriven.evaluate ⟨"a", "y"⟩ = .error (.evaluation ⟨"a", "x"⟩ .cycle) ∧
    ReflTransGen selfDriven.DependsOn ⟨"a", "y"⟩ ⟨"a", "x"⟩ ∧
    TransGen selfDriven.DependsOn ⟨"a", "x"⟩ ⟨"a", "x"⟩ := by
  have h : selfDriven.evaluate ⟨"a", "y"⟩ = .error (.evaluation ⟨"a", "x"⟩ .cycle) := by
    cbv
  exact ⟨h, (evaluation_exact selfDriven ⟨"a", "y"⟩).2.2.2 ⟨"a", "x"⟩ h⟩

end Graph

end RigScript
